/-
# The value of a manifest

A record as the JSON value that its text stands for: whatever the order in which the members
of the value were put there, the value is written as the text of the record, and this text
is read back.
-/

import EspContainer.Json.Invariants
import EspContainer.Tools.Dictionaries
import EspContainer.Tools.ManifestCheck

namespace Tools

open Binary Json Package Text

/-! ## ASCII texts -/

/-- The encoding of an ASCII text. -/
theorem utf8_ofList {text : List Nat} (htext : IsAscii text) :
    Guest.utf8 (String.ofList (text.map Char.ofNat)) = encoded text := by
  rw [Guest.utf8, String.toByteArray_ofList]
  induction text with
  | nil => simp
  | cons code text ih =>
      rw [IsAscii, List.forall_mem_cons] at htext
      have hcode := @toNat_ofNat code (by omega)
      have hsize : (Char.ofNat code).utf8Size = 1 := by
        rw [Char.utf8Size_eq_one_iff, UInt32.le_iff_toNat_le]
        change (Char.ofNat code).toNat ≤ 127
        omega
      rw [List.map_cons, List.utf8Encode_cons, List.utf8Encode_singleton,
        String.utf8EncodeChar_eq_singleton hsize, ByteArray.data_append, Array.toList_append,
        ih htext.2]
      change [(Char.ofNat code).toNat.toUInt8] ++ encoded text = _
      rw [hcode]
      rfl

theorem encodeUtf8_ascii {text : List Nat} (htext : IsAscii text) :
    encodeUtf8 text = .ok (encoded text) := by
  rw [encodeUtf8, if_pos ?_, utf8_ofList htext]
  rw [List.all_eq_true]
  intro code hcode
  have hascii := htext code hcode
  exact decide_eq_true (.inl (by omega))

/-! ## Values -/

variable {F : Type} {format : F → Option (List Nat)}

/-- Members under keys that are literals. -/
def keyed (items : List (String × Value F)) : List (List Nat × Value F) :=
  items.map fun item => (codes item.1, item.2)

namespace ManifestRecord

variable (record : ManifestRecord)

/-- The limits in the order of their keys. -/
def limitItems : List (String × Value F) :=
  [("event_queue_limit", .int record.eventQueueLimit),
    ("host_call_timeout_ms", .int record.hostCallTimeoutMs),
    ("instruction_budget", .int record.instructionBudget),
    ("memory_limit_bytes", .int record.memoryLimitBytes),
    ("stack_limit_bytes", .int record.stackLimitBytes),
    ("storage_limit_bytes", .int record.storageLimitBytes)]

/-- The payload's facts in the order of their keys. -/
def payloadItems : List (String × Value F) :=
  [("path", .str (codes "app.wasm")), ("sha256", .str (codes record.payloadSha256)),
    ("size_bytes", .int record.payloadSizeBytes)]

/-- The members in the order of their keys, with these limits and this payload. -/
def items (limits payload : Value F) : List (String × Value F) :=
  [("data_schema_version", .int record.dataSchemaVersion),
    ("guest_abi_version", .int record.guestAbiVersion),
    ("limits", limits),
    ("package_format_version", .int 1),
    ("payload", payload),
    ("product_id", .str (codes record.productId)),
    ("product_version", .str (codes record.productVersion)),
    ("required_capabilities", .list (record.requiredCapabilities.map fun name => .str (codes name))),
    ("runtime_profile", .str (codes record.runtimeProfile)),
    ("signature_algorithm", .str (codes "rsa-3072-pss-sha256")),
    ("signing_key_id", .str (codes record.signingKeyId))]

/-- The texts of the members in the order of their keys. -/
def memberTexts : List (String × List Nat) :=
  [("data_schema_version", decimal record.dataSchemaVersion),
    ("guest_abi_version", decimal record.guestAbiVersion), ("limits", record.limitsText),
    ("package_format_version", decimal 1), ("payload", record.payloadText),
    ("product_id", quoted (codes record.productId)),
    ("product_version", quoted (codes record.productVersion)),
    ("required_capabilities", namesText record.requiredCapabilities false),
    ("runtime_profile", quoted (codes record.runtimeProfile)),
    ("signature_algorithm", quoted (codes "rsa-3072-pss-sha256")),
    ("signing_key_id", quoted (codes record.signingKeyId))]

/-- The value of a record. -/
def value : Value F :=
  .dict (keyed (record.items (.dict (keyed record.limitItems)) (.dict (keyed record.payloadItems))))

end ManifestRecord

/-! ## Writing -/

/-- A text that needs no escapes. -/
def isUnescaped (text : List Nat) : Bool := text.all fun code => 32 ≤ code && code != 34 && code != 92

theorem writeString_of_unescaped {text : List Nat} (htext : isUnescaped text = true) :
    writeString text = quoted text := by
  have hescape : text.flatMap escape = text.flatMap fun code => [code] := by
    rw [isUnescaped, List.all_eq_true] at htext
    refine List.flatMap_congr fun code hcode => ?_
    have hplain := htext code hcode
    simp only [Bool.and_eq_true, decide_eq_true_eq, bne_iff_ne] at hplain
    obtain ⟨⟨hvisible, hquote⟩, hbackslash⟩ := hplain
    simp only [escape, hquote, hbackslash, show code ≠ 10 by omega, show code ≠ 13 by omega,
      show code ≠ 9 by omega, show code ≠ 12 by omega, show code ≠ 8 by omega,
      Nat.not_lt.mpr hvisible, if_false]
  rw [writeString, hescape, List.flatMap_singleton']

theorem isUnescaped_of_identifier {text : List Nat} (htext : isIdentifier text = true) :
    isUnescaped text = true := by
  rw [isUnescaped, List.all_eq_true]
  intro code hcode
  have hrange := range_of_mem_identifier htext hcode
  simp only [Bool.and_eq_true, decide_eq_true_eq, bne_iff_ne]
  omega

theorem range_of_mem_sha256 {text : List Nat} (htext : isSha256 text = true) {code : Nat}
    (hcode : code ∈ text) : 48 ≤ code ∧ code ≤ 102 ∧ code ≠ 92 := by
  rw [isSha256, Bool.and_eq_true, List.all_eq_true] at htext
  have hdigit := htext.2 code hcode
  simp only [isDecimalDigit, Bool.or_eq_true, Bool.and_eq_true, decide_eq_true_eq] at hdigit
  omega

theorem isUnescaped_of_sha256 {text : List Nat} (htext : isSha256 text = true) :
    isUnescaped text = true := by
  rw [isUnescaped, List.all_eq_true]
  intro code hcode
  have hrange := range_of_mem_sha256 htext hcode
  simp only [Bool.and_eq_true, decide_eq_true_eq, bne_iff_ne]
  omega

theorem write_nat (number : Nat) : write format (.int number) = some (decimal number) := by
  rw [write, writeInt, if_neg (by omega), Int.natAbs_natCast]

theorem write_str {text : List Nat} (htext : isUnescaped text = true) :
    write format (.str text) = some (quoted text) := by
  rw [write, writeString_of_unescaped htext]

theorem write_identifier {text : List Nat} (htext : isIdentifier text = true) :
    write format (.str text) = some (quoted text) := write_str (isUnescaped_of_identifier htext)

theorem keys_keyed (items : List (String × Value F)) :
    (keyed items).map Prod.fst = items.map fun item => codes item.1 := by
  rw [keyed, List.map_map]
  rfl

/-- Members with the texts of their values. -/
def MembersWritten (format : F → Option (List Nat)) (items : List (String × Value F))
    (texts : List (String × List Nat)) : Prop :=
  List.Forall₂ (fun item text => item.1 = text.1 ∧ write format item.2 = some text.2) items texts

theorem writeMembers_keyed {items : List (String × Value F)} {texts : List (String × List Nat)}
    (htexts : MembersWritten format items texts) :
    writeMembers format (keyed items) = some (texts.map fun text => (codes text.1, text.2)) := by
  induction htexts with
  | nil => rfl
  | cons hitem _ ih =>
      rw [keyed, List.map_cons, writeMembers_cons]
      rw [keyed] at ih
      simp [hitem.1, hitem.2, ih]

theorem writeMember_of_unescaped {key : String} (hkey : isUnescaped (codes key) = true)
    (value : List Nat) : writeMember (codes key, value) = memberText key value := by
  rw [writeMember, writeString_of_unescaped hkey, memberText, List.append_assoc]

/-- An object is written as the texts of its members in order. -/
theorem write_object {members : List (List Nat × Value F)} {items : List (String × Value F)}
    (texts : List (String × List Nat)) (hperm : members.Perm (keyed items))
    (hkeys : ((keyed items).map Prod.fst).Pairwise (· < ·))
    (hunescaped : (texts.map Prod.fst).all (fun key => isUnescaped (codes key)) = true)
    (htexts : MembersWritten format items texts) :
    write format (.dict members) =
      some (objectText (texts.map fun text => memberText text.1 text.2)) := by
  refine (write_dict_of_perm hperm hkeys).mpr ⟨_, writeMembers_keyed htexts, ?_⟩
  have hmembers : (texts.map fun text => (codes text.1, text.2)).map writeMember =
      texts.map fun text => memberText text.1 text.2 := by
    rw [List.map_map]
    refine List.map_congr_left fun text htext => ?_
    exact writeMember_of_unescaped (List.all_eq_true.mp hunescaped text.1 (List.mem_map_of_mem htext)) _
  rw [hmembers, objectText, List.append_assoc]

section Record

variable {record : ManifestRecord}

theorem sorted_limitItems (record : ManifestRecord) :
    ((keyed (F := F) record.limitItems).map Prod.fst).Pairwise (· < ·) := by
  rw [keys_keyed]
  change [codes "event_queue_limit", codes "host_call_timeout_ms", codes "instruction_budget",
    codes "memory_limit_bytes", codes "stack_limit_bytes", codes "storage_limit_bytes"].Pairwise _
  decide

theorem sorted_payloadItems (record : ManifestRecord) :
    ((keyed (F := F) record.payloadItems).map Prod.fst).Pairwise (· < ·) := by
  rw [keys_keyed]
  change [codes "path", codes "sha256", codes "size_bytes"].Pairwise _
  decide

theorem sorted_items (record : ManifestRecord) (limits payload : Value F) :
    ((keyed (record.items limits payload)).map Prod.fst).Pairwise (· < ·) := by
  rw [keys_keyed]
  change [codes "data_schema_version", codes "guest_abi_version", codes "limits",
    codes "package_format_version", codes "payload", codes "product_id", codes "product_version",
    codes "required_capabilities", codes "runtime_profile", codes "signature_algorithm",
    codes "signing_key_id"].Pairwise _
  decide

/-- The limits are written as their text. -/
theorem write_limits {members : List (List Nat × Value F)}
    (hperm : members.Perm (keyed record.limitItems)) :
    write format (.dict members) = some record.limitsText :=
  write_object
    [("event_queue_limit", decimal record.eventQueueLimit),
      ("host_call_timeout_ms", decimal record.hostCallTimeoutMs),
      ("instruction_budget", decimal record.instructionBudget),
      ("memory_limit_bytes", decimal record.memoryLimitBytes),
      ("stack_limit_bytes", decimal record.stackLimitBytes),
      ("storage_limit_bytes", decimal record.storageLimitBytes)]
    hperm (sorted_limitItems record) (by simp only [List.map]; decide)
    (.cons ⟨rfl, write_nat _⟩ <| .cons ⟨rfl, write_nat _⟩ <| .cons ⟨rfl, write_nat _⟩ <|
      .cons ⟨rfl, write_nat _⟩ <| .cons ⟨rfl, write_nat _⟩ <| .cons ⟨rfl, write_nat _⟩ .nil)

/-- The payload's facts are written as their text. -/
theorem write_payload (hdigest : isSha256 (codes record.payloadSha256) = true)
    {members : List (List Nat × Value F)} (hperm : members.Perm (keyed record.payloadItems)) :
    write format (.dict members) = some record.payloadText :=
  write_object
    [("path", quoted (codes "app.wasm")), ("sha256", quoted (codes record.payloadSha256)),
      ("size_bytes", decimal record.payloadSizeBytes)]
    hperm (sorted_payloadItems record) (by simp only [List.map]; decide)
    (.cons ⟨rfl, write_str rfl⟩ <| .cons ⟨rfl, write_str (isUnescaped_of_sha256 hdigest)⟩ <|
      .cons ⟨rfl, write_nat _⟩ .nil)

theorem writeItems_names {names : List String}
    (hnames : ∀ name ∈ names, isIdentifier (codes name) = true) :
    writeItems format (names.map fun name => .str (codes name)) =
      some (names.map fun name => quoted (codes name)) := by
  induction names with
  | nil => rfl
  | cons name names ih =>
      rw [List.forall_mem_cons] at hnames
      rw [List.map_cons, writeItems, write_identifier hnames.1, ih hnames.2]
      rfl

theorem write_names {names : List String} (hnames : ∀ name ∈ names, isIdentifier (codes name) = true) :
    write format (.list (names.map fun name => .str (codes name))) = some (namesText names false) := by
  rw [write, writeItems_names hnames, Option.map_some, namesText]
  simp

/-- The texts of the members are what is written of their values. -/
theorem membersWritten_items (hrecord : record.Valid) {limits payload : List (List Nat × Value F)}
    (hlimits : limits.Perm (keyed record.limitItems))
    (hpayload : payload.Perm (keyed record.payloadItems)) :
    MembersWritten format (record.items (.dict limits) (.dict payload)) record.memberTexts :=
  .cons ⟨rfl, write_nat _⟩ <| .cons ⟨rfl, write_nat _⟩ <| .cons ⟨rfl, write_limits hlimits⟩ <|
    .cons ⟨rfl, write_nat 1⟩ <| .cons ⟨rfl, write_payload hrecord.payloadDigest hpayload⟩ <|
    .cons ⟨rfl, write_identifier hrecord.productId⟩ <|
    .cons ⟨rfl, write_identifier hrecord.productVersion⟩ <|
    .cons ⟨rfl, write_names hrecord.names⟩ <|
    .cons ⟨rfl, write_identifier hrecord.runtimeProfile⟩ <| .cons ⟨rfl, write_str rfl⟩ <|
    .cons ⟨rfl, write_identifier hrecord.signingKeyId⟩ .nil

theorem isUnescaped_memberTexts (record : ManifestRecord) :
    (record.memberTexts.map Prod.fst).all (fun key => isUnescaped (codes key)) = true := by
  simp only [ManifestRecord.memberTexts, List.map]
  decide

/-- A manifest is written as the text of its record, in whatever order its members are. -/
theorem write_manifest (hrecord : record.Valid) {members limits payload : List (List Nat × Value F)}
    (hperm : members.Perm (keyed (record.items (.dict limits) (.dict payload))))
    (hlimits : limits.Perm (keyed record.limitItems))
    (hpayload : payload.Perm (keyed record.payloadItems)) :
    write format (.dict members) = some record.text :=
  write_object record.memberTexts hperm (sorted_items record (.dict limits) (.dict payload))
    (isUnescaped_memberTexts record) (membersWritten_items hrecord hlimits hpayload)

end Record

/-! ## ASCII -/

theorem isAscii_quoted {text : List Nat} (htext : IsAscii text) : IsAscii (quoted text) :=
  IsAscii.append (by decide) (htext.append (by decide))

theorem isAscii_commaed {texts : List (List Nat)} (htexts : ∀ text ∈ texts, IsAscii text) :
    IsAscii (commaed texts) := by
  induction texts with
  | nil =>
      rintro code ⟨⟩
  | cons text texts ih =>
      rw [List.forall_mem_cons] at htexts
      rw [commaed_cons]
      refine htexts.1.append ?_
      split
      · rintro code ⟨⟩
      · exact IsAscii.append (by decide) (ih htexts.2)

theorem isAscii_decimal (number : Nat) : IsAscii (decimal number) := by
  intro code hcode
  have hdigit := isDecimalDigit_of_mem_decimal hcode
  rw [isDecimalDigit, Bool.and_eq_true, decide_eq_true_eq, decide_eq_true_eq] at hdigit
  omega

theorem isAscii_identifier {text : List Nat} (htext : isIdentifier text = true) : IsAscii text := by
  intro code hcode
  have hrange := range_of_mem_identifier htext hcode
  omega

theorem isAscii_sha256 {text : List Nat} (htext : isSha256 text = true) : IsAscii text := by
  intro code hcode
  have hrange := range_of_mem_sha256 htext hcode
  omega

theorem isAscii_memberText {key : String} (hkey : IsAscii (codes key)) {value : List Nat}
    (hvalue : IsAscii value) : IsAscii (memberText key value) :=
  ((isAscii_quoted hkey).append (by decide)).append hvalue

theorem isAscii_objectText {members : List (List Nat)} (hmembers : ∀ text ∈ members, IsAscii text) :
    IsAscii (objectText members) :=
  (IsAscii.append (by decide) (isAscii_commaed hmembers)).append (by decide)

/-- Some members behind another. -/
theorem isAscii_member_cons {key : String} (hkey : IsAscii (codes key)) {value : List Nat}
    (hvalue : IsAscii value) {members : List (List Nat)} (hmembers : ∀ text ∈ members, IsAscii text) :
    ∀ text ∈ memberText key value :: members, IsAscii text :=
  List.forall_mem_cons.mpr ⟨isAscii_memberText hkey hvalue, hmembers⟩

theorem isAscii_namesText {names : List String} (hnames : ∀ name ∈ names, isIdentifier (codes name) = true)
    (comma : Bool) : IsAscii (namesText names comma) := by
  have hcomma : IsAscii (if comma then codes "," else []) := by
    cases comma <;> decide
  refine ((IsAscii.append (by decide) (isAscii_commaed ?_)).append hcomma).append (by decide)
  rw [List.forall_mem_map]
  intro name hname
  exact isAscii_quoted (isAscii_identifier (hnames name hname))

/-- The texts of a record are ASCII. -/
theorem ManifestRecord.Valid.isAscii_spelled {record : ManifestRecord} (hrecord : record.Valid)
    (comma : Bool) : IsAscii (record.spelled comma) := by
  have hnumber := isAscii_decimal
  have hlimits : IsAscii record.limitsText :=
    isAscii_objectText <| isAscii_member_cons (by decide) (hnumber _) <|
      isAscii_member_cons (by decide) (hnumber _) <| isAscii_member_cons (by decide) (hnumber _) <|
      isAscii_member_cons (by decide) (hnumber _) <| isAscii_member_cons (by decide) (hnumber _) <|
      isAscii_member_cons (by decide) (hnumber _) (by simp)
  have hpayload : IsAscii record.payloadText :=
    isAscii_objectText <| isAscii_member_cons (by decide) (isAscii_quoted (by decide)) <|
      isAscii_member_cons (by decide) (isAscii_quoted (isAscii_sha256 hrecord.payloadDigest)) <|
      isAscii_member_cons (by decide) (hnumber _) (by simp)
  have hidentifier {text : String} (htext : isIdentifier (codes text) = true) :
      IsAscii (quoted (codes text)) := isAscii_quoted (isAscii_identifier htext)
  exact isAscii_objectText <| isAscii_member_cons (by decide) (hnumber _) <|
    isAscii_member_cons (by decide) (hnumber _) <| isAscii_member_cons (by decide) hlimits <|
    isAscii_member_cons (by decide) (hnumber _) <| isAscii_member_cons (by decide) hpayload <|
    isAscii_member_cons (by decide) (hidentifier hrecord.productId) <|
    isAscii_member_cons (by decide) (hidentifier hrecord.productVersion) <|
    isAscii_member_cons (by decide) (isAscii_namesText hrecord.names comma) <|
    isAscii_member_cons (by decide) (hidentifier hrecord.runtimeProfile) <|
    isAscii_member_cons (by decide) (isAscii_quoted (by decide)) <|
    isAscii_member_cons (by decide) (hidentifier hrecord.signingKeyId) (by simp)

theorem ManifestRecord.Valid.isAscii_text {record : ManifestRecord} (hrecord : record.Valid) :
    IsAscii record.text := hrecord.isAscii_spelled false

end Tools
