/-
# What the tools accept as a manifest

Exactly the canonical texts of valid records. The checks settle what the value is up to the
order of its members, and its text does not depend on this order; the comparison with the
text does the rest.
-/

import EspContainer.Tools.ManifestFields

namespace Tools

open Binary Json Package Text

variable {F : Type} {interpreter : Interpreter F} {data : List UInt8} {record : ManifestRecord}

/-! ## Objects -/

theorem foldlM_uniquePair {result pairs out : List (List Nat × Value F)}
    (hresult : (result.map Prod.fst).Nodup) :
    pairs.foldlM uniquePair result = .ok out ↔
      ((result ++ pairs).map Prod.fst).Nodup ∧ out = result ++ pairs := by
  induction pairs generalizing result with
  | nil =>
      rw [List.foldlM_nil, raising_pure_eq_ok, List.append_nil, and_iff_right hresult, eq_comm]
  | cons pair pairs ih =>
      rw [List.foldlM_cons, uniquePair]
      split
      · next hseen =>
        rw [List.contains_iff_mem] at hseen
        constructor
        · intro herror
          cases herror
        · rintro ⟨hnodup, -⟩
          rw [List.map_append, List.nodup_append] at hnodup
          exact absurd rfl (hnodup.2.2 _ hseen _ List.mem_cons_self)
      · next hfresh =>
        rw [List.contains_iff_mem] at hfresh
        have hnext : ((result ++ [pair]).map Prod.fst).Nodup := by
          rw [List.map_append, List.map_singleton, List.nodup_append]
          refine ⟨hresult, List.nodup_singleton _, ?_⟩
          rintro key hkey other hother rfl
          exact hfresh (List.mem_singleton.mp hother ▸ hkey)
        have hrest := @ih (result ++ [pair]) hnext
        rwa [List.append_assoc] at hrest

/-- Objects are kept if no key is there twice. -/
theorem uniquePairs_eq_ok {pairs : List (List Nat × Value F)} {value : Value F} :
    uniquePairs pairs = .ok value ↔ (pairs.map Prod.fst).Nodup ∧ value = .dict pairs := by
  have hempty : (([] : List (List Nat × Value F)).map Prod.fst).Nodup := List.nodup_nil
  rw [uniquePairs, raising_bind_eq_ok]
  constructor
  · rintro ⟨result, hresult, hvalue⟩
    rw [foldlM_uniquePair hempty, List.nil_append] at hresult
    rw [raising_pure_eq_ok] at hvalue
    exact ⟨hresult.1, by rw [← hvalue, hresult.2]⟩
  · rintro ⟨hnodup, rfl⟩
    exact ⟨pairs, (foldlM_uniquePair hempty).mpr ⟨hnodup, rfl⟩, rfl⟩

theorem keepsMembers (interpreter : Interpreter F) : KeepsMembers interpreter.decoder := by
  intro members hkeys
  exact uniquePairs_eq_ok.mpr ⟨hkeys.imp ne_of_lt, rfl⟩

theorem kept_keyed (interpreter : Interpreter F) : Kept interpreter.decoder Keyed where
  null := .null
  bool := .bool
  int := .int
  float := .float
  str := .str
  list _ := .list
  constant _ _ hvalue := by cases hvalue
  dict members value hmembers hvalue := by
    obtain ⟨hkeys, rfl⟩ := uniquePairs_eq_ok.mp hvalue
    exact .dict hmembers hkeys

/-! ## Texts -/

theorem readManifest_eq_ok {value : Value F} :
    readManifest interpreter data = .ok value ↔
      ∃ text, Guest.utf8 text = data ∧
        read interpreter.decoder interpreter.nesting (codes text) = .ok value := by
  rw [readManifest]
  constructor
  · intro hvalue
    split at hvalue
    · cases hvalue
    · next text htext =>
      refine ⟨text, Guest.decodeUtf8_eq_ok.mp htext, ?_⟩
      split at hvalue
      · cases hvalue
      · cases hvalue
      · cases hvalue
      · next found hfound =>
        cases hvalue
        exact hfound
  · rintro ⟨text, rfl, hvalue⟩
    rw [Guest.decodeUtf8_eq_ok.mpr rfl]
    dsimp only
    rw [hvalue]

theorem jsonBytes_of_ascii {value : Value F} {text : List Nat}
    (htext : write interpreter.formatFloat value = some text) (hascii : IsAscii text) :
    jsonBytes interpreter value = .ok (encoded text) := by
  rw [jsonBytes, htext]
  exact encodeUtf8_ascii hascii

/-! ## The checks together -/

/-- A dictionary has these items, and its keys are the ones in a list. -/
def Has (members : List (List Nat × Value F)) (keys : List (List Nat))
    (items : List (String × Value F)) : Prop :=
  Guest.sameElements (members.map Prod.fst) keys = true ∧
    ∀ item ∈ items, members.lookup (codes item.1) = some item.2

/-- What the checks establish of the three dictionaries in a manifest. -/
structure Recorded (members limits payload : List (List Nat × Value F)) (record : ManifestRecord) :
    Prop where
  valid : record.Valid
  members : Has members manifestKeys (record.items (.dict limits) (.dict payload))
  limits : Has limits limitKeys record.limitItems
  payload : Has payload payloadKeys record.payloadItems

/-- Such a dictionary has just these items, in some order. -/
theorem Has.perm {members : List (List Nat × Value F)} {keys : List (List Nat)}
    {items : List (String × Value F)} (hhas : Has members keys items)
    (hmembers : (members.map Prod.fst).Nodup)
    (hsorted : ((keyed items).map Prod.fst).Pairwise (· < ·))
    (hkeys : ∀ key ∈ keys, key ∈ (keyed items).map Prod.fst) : members.Perm (keyed items) := by
  refine perm_of_lookups hmembers (hsorted.imp ne_of_lt) ?_ ?_
  · intro key hkey
    exact hkeys key ((Guest.mem_iff_of_sameElements hhas.1).mp hkey)
  · rw [keyed, List.forall_mem_map]
    exact hhas.2

theorem perm_limits {limits : List (List Nat × Value F)} (hlimits : Has limits limitKeys record.limitItems)
    (hkeys : (limits.map Prod.fst).Nodup) : limits.Perm (keyed record.limitItems) := by
  refine hlimits.perm hkeys (sorted_limitItems record) ?_
  rw [keys_keyed]
  simp only [ManifestRecord.limitItems, List.map]
  decide

theorem perm_payload {payload : List (List Nat × Value F)}
    (hpayload : Has payload payloadKeys record.payloadItems) (hkeys : (payload.map Prod.fst).Nodup) :
    payload.Perm (keyed record.payloadItems) := by
  refine hpayload.perm hkeys (sorted_payloadItems record) ?_
  rw [keys_keyed]
  simp only [ManifestRecord.payloadItems, List.map]
  decide

theorem perm_members {members : List (List Nat × Value F)} {limits payload : Value F}
    (hmembers : Has members manifestKeys (record.items limits payload))
    (hkeys : (members.map Prod.fst).Nodup) : members.Perm (keyed (record.items limits payload)) := by
  refine hmembers.perm hkeys (sorted_items record limits payload) ?_
  rw [keys_keyed]
  simp only [ManifestRecord.items, List.map]
  decide

/-- The limits of a valid record pass the loop over the limits. -/
theorem limitValid_of_perm {limits : List (List Nat × Value F)} (hrecord : record.Valid)
    (hperm : limits.Perm (keyed record.limitItems)) : ∀ limit ∈ limits, limitValid limit = true := by
  have hall : ∀ limit ∈ keyed (F := F) record.limitItems, limitValid limit = true := by
    have hlower (key : String) (hkey : key ≠ "storage_limit_bytes") : limitLower (codes key) = 1 :=
      if_neg fun hsame => hkey (codes_injective hsame)
    have hpositive {key : String} (hkey : key ≠ "storage_limit_bytes") {number : Nat}
        (hnumber : 0 < number ∧ number ≤ uint32Max) :
        limitValid (codes key, (.int number : Value F)) = true := by
      rw [limitValid_int, hlower key hkey, Int.ofNat_le]
      omega
    rw [keyed, List.forall_mem_map]
    simp only [ManifestRecord.limitItems, List.forall_mem_cons]
    refine ⟨hpositive (by decide) hrecord.eventQueue, hpositive (by decide) hrecord.hostCallTimeout,
      hpositive (by decide) hrecord.instructionBudget, hpositive (by decide) hrecord.memory,
      hpositive (by decide) hrecord.stack, ?_, by simp⟩
    rw [limitValid_int, Int.ofNat_le]
    exact ⟨Int.natCast_nonneg _, hrecord.storage⟩
  intro limit hlimit
  exact hall limit (hperm.mem_iff.mp hlimit)

theorem nonneg_of_size (value : Int) (hvalue : decide (8 ≤ value) = true) : 0 ≤ value := by
  rw [decide_eq_true_eq] at hvalue
  omega

theorem nonneg_of_format (value : Int) (hvalue : (value == 1) = true) : 0 ≤ value := by
  rw [eq_of_beq hvalue]
  decide

/-- What was accepted had the members of the record that comes out. -/
theorem recorded_of_manifest (hmanifest : manifest interpreter data = .ok record) :
    (0 < data.length ∧ data.length ≤ packageManifestMaxBytes) ∧
      ∃ members limits payload, readManifest interpreter data = .ok (.dict members) ∧
        jsonBytes interpreter (.dict members) = .ok data ∧
        Recorded members limits payload record := by
  simp only [manifest, raising_bind_eq_ok] at hmanifest
  obtain ⟨_, hlength, value, hvalue, members, hmembers, canonical, hcanonical, _, hsame, one, hformat,
    productId, hproductId, productVersion, hproductVersion, runtimeProfile, hruntimeProfile,
    signingKeyId, hsigningKeyId, guestAbi, hguestAbi, dataSchema, hdataSchema, names, hnames,
    limitsValue, hlimitsValue, limits, hlimits, _, hchecked, payloadValue, hpayloadValue, payload,
    hpayload, path, hpath, size, hpayloadSize, digest, hpayloadDigest, algorithm, halgorithm,
    eventQueue, heventQueue, hostCallTimeout, hhostCallTimeout, instructionBudget,
    hinstructionBudget, memory, hmemory, stack, hstack, storage, hstorage, hrecord⟩ := hmanifest
  rw [demand_eq_ok, Bool.and_eq_true, decide_eq_true_eq, decide_eq_true_eq] at hlength
  rw [dictOf_eq_ok] at hmembers hlimits hpayload
  rw [item_eq_ok] at hlimitsValue hpayloadValue
  obtain ⟨rfl, hkeys⟩ := hmembers
  obtain ⟨rfl, hlimitKeys⟩ := hlimits
  obtain ⟨rfl, hpayloadKeys⟩ := hpayload
  obtain rfl := eq_of_beq (demand_eq_ok.mp hsame)
  rw [intField_eq_ok nonneg_of_format] at hformat
  rw [identifierField_eq_ok] at hproductId hproductVersion hruntimeProfile hsigningKeyId
  rw [versionField_eq_ok] at hguestAbi hdataSchema
  rw [capabilitiesField_eq_ok] at hnames
  rw [checkLimits_eq_ok] at hchecked
  rw [strField_eq_literal (by decide)] at hpath halgorithm
  rw [intField_eq_ok nonneg_of_size] at hpayloadSize
  rw [strField_eq_ok fun _ => isAscii_sha256] at hpayloadDigest
  rw [limitField_eq_ok hchecked] at heventQueue hhostCallTimeout hinstructionBudget hmemory hstack
  rw [limitField_eq_ok hchecked] at hstorage
  have hlimit {key : String} {number : Nat}
      (hnumber : limits.lookup (codes key) = some (.int number)) :
      limitLower (codes key) ≤ number ∧ number ≤ uint32Max := by
    have hvalid := limitValid_int.mp (hchecked _ (mem_of_lookup hnumber))
    rwa [Int.ofNat_le] at hvalid
  have hpositive {key : String} {number : Nat}
      (hnumber : limits.lookup (codes key) = some (.int number))
      (hlower : limitLower (codes key) = 1) : 0 < number ∧ number ≤ uint32Max := by
    have hvalid := hlimit hnumber
    rw [hlower] at hvalid
    omega
  obtain rfl : one = 1 := by simpa using hformat.2
  rw [raising_pure_eq_ok] at hrecord
  subst hrecord
  refine ⟨hlength, members, limits, payload, hvalue, hcanonical, ?_, ⟨hkeys, ?_⟩, ⟨hlimitKeys, ?_⟩,
    ⟨hpayloadKeys, ?_⟩⟩
  · exact
      { productId := hproductId.2
        productVersion := hproductVersion.2
        runtimeProfile := hruntimeProfile.2
        signingKeyId := hsigningKeyId.2
        guestAbi := hguestAbi.2
        dataSchema := hdataSchema.2
        names := hnames.2.1
        few := hnames.2.2.1
        sorted := hnames.2.2.2
        eventQueue := hpositive heventQueue rfl
        hostCallTimeout := hpositive hhostCallTimeout rfl
        instructionBudget := hpositive hinstructionBudget rfl
        memory := hpositive hmemory rfl
        stack := hpositive hstack rfl
        storage := (hlimit hstorage).2
        payloadSize := by simpa using hpayloadSize.2
        payloadDigest := hpayloadDigest.2 }
  · simp only [ManifestRecord.items, List.forall_mem_cons]
    exact ⟨hdataSchema.1, hguestAbi.1, hlimitsValue, hformat.1, hpayloadValue, hproductId.1,
      hproductVersion.1, hnames.1, hruntimeProfile.1, halgorithm.1, hsigningKeyId.1, by simp⟩
  · simp only [ManifestRecord.limitItems, List.forall_mem_cons]
    exact ⟨heventQueue, hhostCallTimeout, hinstructionBudget, hmemory, hstack, hstorage, by simp⟩
  · simp only [ManifestRecord.payloadItems, List.forall_mem_cons]
    exact ⟨hpath.1, hpayloadDigest.1, hpayloadSize.1, by simp⟩

/-- The members of a valid record are accepted. -/
theorem manifest_of_recorded {members limits payload : List (List Nat × Value F)}
    (hlength : 0 < data.length ∧ data.length ≤ packageManifestMaxBytes)
    (hvalue : readManifest interpreter data = .ok (.dict members))
    (hcanonical : jsonBytes interpreter (.dict members) = .ok data)
    (hlimits : ∀ limit ∈ limits, limitValid limit = true)
    (hrecorded : Recorded members limits payload record) :
    manifest interpreter data = .ok record := by
  obtain ⟨hvalid, ⟨hkeys, hitems⟩, ⟨hlimitKeys, hlimitItems⟩, hpayloadKeys, hpayloadItems⟩ := hrecorded
  simp only [ManifestRecord.items, List.forall_mem_cons] at hitems
  simp only [ManifestRecord.limitItems, List.forall_mem_cons] at hlimitItems
  simp only [ManifestRecord.payloadItems, List.forall_mem_cons] at hpayloadItems
  obtain ⟨hdataSchema, hguestAbi, hlimitsValue, hformat, hpayloadValue, hproductId, hproductVersion,
    hnames, hruntimeProfile, halgorithm, hsigningKeyId, -⟩ := hitems
  obtain ⟨heventQueue, hhostCallTimeout, hinstructionBudget, hmemory, hstack, hstorage, -⟩ := hlimitItems
  obtain ⟨hpath, hdigest, hsize, -⟩ := hpayloadItems
  simp only [manifest, raising_bind_eq_ok]
  refine ⟨(), demand_eq_ok.mpr ?_, .dict members, hvalue, members, dictOf_eq_ok.mpr ⟨rfl, hkeys⟩, data,
    hcanonical, (), demand_eq_ok.mpr (beq_self_eq_true data), 1,
    (intField_eq_ok nonneg_of_format).mpr ⟨hformat, rfl⟩,
    record.productId, identifierField_eq_ok.mpr ⟨hproductId, hvalid.productId⟩,
    record.productVersion, identifierField_eq_ok.mpr ⟨hproductVersion, hvalid.productVersion⟩,
    record.runtimeProfile, identifierField_eq_ok.mpr ⟨hruntimeProfile, hvalid.runtimeProfile⟩,
    record.signingKeyId, identifierField_eq_ok.mpr ⟨hsigningKeyId, hvalid.signingKeyId⟩,
    record.guestAbiVersion, versionField_eq_ok.mpr ⟨hguestAbi, hvalid.guestAbi⟩,
    record.dataSchemaVersion, versionField_eq_ok.mpr ⟨hdataSchema, hvalid.dataSchema⟩,
    record.requiredCapabilities,
    capabilitiesField_eq_ok.mpr ⟨hnames, hvalid.names, hvalid.few, hvalid.sorted⟩,
    .dict limits, item_eq_ok.mpr hlimitsValue, limits, dictOf_eq_ok.mpr ⟨rfl, hlimitKeys⟩, (),
    checkLimits_eq_ok.mpr hlimits, .dict payload, item_eq_ok.mpr hpayloadValue, payload,
    dictOf_eq_ok.mpr ⟨rfl, hpayloadKeys⟩, "app.wasm", (strField_eq_literal (by decide)).mpr ⟨hpath, rfl⟩,
    record.payloadSizeBytes, (intField_eq_ok nonneg_of_size).mpr ⟨hsize, ?_⟩, record.payloadSha256,
    (strField_eq_ok fun _ => isAscii_sha256).mpr ⟨hdigest, hvalid.payloadDigest⟩, "rsa-3072-pss-sha256",
    (strField_eq_literal (by decide)).mpr ⟨halgorithm, rfl⟩,
    record.eventQueueLimit, (limitField_eq_ok hlimits).mpr heventQueue,
    record.hostCallTimeoutMs, (limitField_eq_ok hlimits).mpr hhostCallTimeout,
    record.instructionBudget, (limitField_eq_ok hlimits).mpr hinstructionBudget,
    record.memoryLimitBytes, (limitField_eq_ok hlimits).mpr hmemory,
    record.stackLimitBytes, (limitField_eq_ok hlimits).mpr hstack,
    record.storageLimitBytes, (limitField_eq_ok hlimits).mpr hstorage, rfl⟩
  · rw [Bool.and_eq_true, decide_eq_true_eq, decide_eq_true_eq]
    exact hlength
  · rw [decide_eq_true_eq]
    exact Int.ofNat_le.mpr hvalid.payloadSize

/-! ## The canonical text -/

theorem plain_items (record : ManifestRecord) (depth : Nat) :
    ∀ item ∈ record.items (.dict (keyed record.limitItems)) (.dict (keyed record.payloadItems)),
      Plain (depth + 1) (item.2 : Value F) := by
  have hlimits : Plain (depth + 1) (.dict (keyed (F := F) record.limitItems)) := by
    refine .dict ?_ (sorted_limitItems record)
    rw [keyed, List.forall_mem_map]
    simp only [ManifestRecord.limitItems, List.forall_mem_cons]
    exact ⟨.int _ _, .int _ _, .int _ _, .int _ _, .int _ _, .int _ _, by simp⟩
  have hpayload : Plain (depth + 1) (.dict (keyed (F := F) record.payloadItems)) := by
    refine .dict ?_ (sorted_payloadItems record)
    rw [keyed, List.forall_mem_map]
    simp only [ManifestRecord.payloadItems, List.forall_mem_cons]
    exact ⟨.str _ _, .str _ _, .int _ _, by simp⟩
  have hnames : Plain (depth + 1)
      (.list (record.requiredCapabilities.map fun name => Value.str (F := F) (codes name))) :=
    .list (List.forall_mem_map.mpr fun name _ => .str _ _)
  simp only [ManifestRecord.items, List.forall_mem_cons]
  exact ⟨.int _ _, .int _ _, hlimits, .int _ _, hpayload, .str _ _, .str _ _, hnames, .str _ _,
    .str _ _, .str _ _, by simp⟩

theorem plain_value (record : ManifestRecord) (depth : Nat) :
    Plain (depth + 2) (record.value (F := F)) := by
  refine .dict ?_ (sorted_items record _ _)
  rw [keyed, List.forall_mem_map]
  exact plain_items record depth

/-- An object has the items it is made of. -/
theorem has_keyed {items : List (String × Value F)} {keys : List (List Nat)}
    (hsorted : ((keyed items).map Prod.fst).Pairwise (· < ·))
    (hkeys : Guest.sameElements (items.map fun item => codes item.1) keys = true) :
    Has (keyed items) keys items := by
  refine ⟨by rw [keys_keyed, hkeys], fun item hitem => ?_⟩
  exact lookup_of_mem (hsorted.imp ne_of_lt) (List.mem_map_of_mem hitem)

theorem recorded_value (hrecord : record.Valid) :
    Recorded (keyed (record.items (.dict (keyed record.limitItems)) (.dict (keyed record.payloadItems))))
      (keyed (F := F) record.limitItems) (keyed record.payloadItems) record where
  valid := hrecord
  members := has_keyed (sorted_items record _ _) (by simp only [ManifestRecord.items, List.map]; decide)
  limits := has_keyed (sorted_limitItems record)
    (by simp only [ManifestRecord.limitItems, List.map]; decide)
  payload := has_keyed (sorted_payloadItems record)
    (by simp only [ManifestRecord.payloadItems, List.map]; decide)

/-- The text of a valid record is not empty. -/
theorem length_text_pos (record : ManifestRecord) : 0 < record.text.length := by
  rw [ManifestRecord.text, ManifestRecord.spelled, objectText, List.length_append, List.length_append]
  exact Nat.add_pos_left (Nat.add_pos_left (by decide) _) _

/-- What is accepted is the text of the record that comes out. -/
theorem eq_text_of_manifest (hmanifest : manifest interpreter data = .ok record) :
    record.Valid ∧ data = encoded record.text ∧ data.length ≤ packageManifestMaxBytes := by
  obtain ⟨hlength, members, limits, payload, hvalue, hcanonical, hrecorded⟩ :=
    recorded_of_manifest hmanifest
  obtain ⟨text, -, hread⟩ := readManifest_eq_ok.mp hvalue
  -- The reader refuses keys that are there twice, at every depth.
  have hkeyed := holds_of_read (kept_keyed interpreter) hread
  have hlimits := perm_limits hrecorded.limits
    (hkeyed.of_mem _ (mem_of_lookup (hrecorded.members.2 ("limits", _) (by simp [ManifestRecord.items])))).nodup
  have hpayload := perm_payload hrecorded.payload
    (hkeyed.of_mem _ (mem_of_lookup (hrecorded.members.2 ("payload", _) (by simp [ManifestRecord.items])))).nodup
  have hmembers := perm_members hrecorded.members hkeyed.nodup
  have hwritten : write interpreter.formatFloat (.dict members) = some record.text :=
    write_manifest hrecorded.valid hmembers hlimits hpayload
  rw [jsonBytes_of_ascii hwritten hrecorded.valid.isAscii_text] at hcanonical
  exact ⟨hrecorded.valid, (Except.ok.inj hcanonical).symm, hlength.2⟩

/-- The text of a valid record is accepted, unless it is too long. -/
theorem manifest_text (hnesting : 2 ≤ interpreter.nesting) (hrecord : record.Valid)
    (hlength : record.text.length ≤ packageManifestMaxBytes) :
    manifest interpreter (encoded record.text) = .ok record := by
  have hwritten (format : F → Option (List Nat)) : write format record.value = some record.text :=
    write_manifest hrecord .rfl .rfl .rfl
  have hread : readManifest interpreter (encoded record.text) = .ok record.value := by
    obtain ⟨depth, hdepth⟩ := Nat.exists_eq_add_of_le' hnesting
    obtain ⟨text, htext, hread⟩ := @read_write F Raised interpreter.decoder interpreter.formatFloat
      (keepsMembers interpreter) (depth + 2) record.value (plain_value record depth)
    rw [hwritten, Option.some.injEq] at htext
    rw [readManifest_eq_ok]
    refine ⟨String.ofList (record.text.map Char.ofNat), utf8_ofList hrecord.isAscii_text, ?_⟩
    rw [hrecord.isAscii_text.codes_ofList, hdepth, htext, hread]
  refine manifest_of_recorded ?_ hread (jsonBytes_of_ascii (hwritten _) hrecord.isAscii_text)
    (limitValid_of_perm hrecord .rfl) (recorded_value hrecord)
  rw [length_encoded]
  exact ⟨length_text_pos record, hlength⟩

end Tools
