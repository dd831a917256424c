/-
# The text of a manifest

A record has one text: its members in the order of their keys, nothing between them, and
numbers without leading zeros. `spelled` also writes the one other text that the device
takes, with a comma behind the last capability.
-/

import EspContainer.Json.Writing
import EspContainer.Package.ManifestTokens
import EspContainer.Tools.Record

namespace Tools

open Binary Json Package Text

/-- A member of an object. -/
def memberText (key : String) (value : List Nat) : List Nat := quoted (codes key) ++ codes ":" ++ value

/-- An object without spaces. -/
def objectText (members : List (List Nat)) : List Nat := codes "\x7b" ++ commaed members ++ codes "\x7d"

/-- A list of identifiers, with a comma behind the last one or without. -/
def namesText (names : List String) (comma : Bool) : List Nat :=
  codes "[" ++ commaed (names.map fun name => quoted (codes name)) ++
    (if comma then codes "," else []) ++ codes "]"

/-- `[0-9a-f]{64}`, the whole text. -/
def isSha256 (text : List Nat) : Bool :=
  text.length == 64 && text.all fun code => isDecimalDigit code || (97 ≤ code && code ≤ 102)

namespace ManifestRecord

/-- The text of the limits. -/
def limitsText (record : ManifestRecord) : List Nat :=
  objectText
    [memberText "event_queue_limit" (decimal record.eventQueueLimit),
      memberText "host_call_timeout_ms" (decimal record.hostCallTimeoutMs),
      memberText "instruction_budget" (decimal record.instructionBudget),
      memberText "memory_limit_bytes" (decimal record.memoryLimitBytes),
      memberText "stack_limit_bytes" (decimal record.stackLimitBytes),
      memberText "storage_limit_bytes" (decimal record.storageLimitBytes)]

/-- The text of the payload's facts. -/
def payloadText (record : ManifestRecord) : List Nat :=
  objectText
    [memberText "path" (quoted (codes "app.wasm")),
      memberText "sha256" (quoted (codes record.payloadSha256)),
      memberText "size_bytes" (decimal record.payloadSizeBytes)]

/-- The members before the product. -/
def membersBefore (record : ManifestRecord) : List (List Nat) :=
  [memberText "data_schema_version" (decimal record.dataSchemaVersion),
    memberText "guest_abi_version" (decimal record.guestAbiVersion),
    memberText "limits" record.limitsText,
    memberText "package_format_version" (decimal 1),
    memberText "payload" record.payloadText]

/-- The members behind the product. -/
def membersBehind (record : ManifestRecord) (comma : Bool) : List (List Nat) :=
  [memberText "required_capabilities" (namesText record.requiredCapabilities comma),
    memberText "runtime_profile" (quoted (codes record.runtimeProfile)),
    memberText "signature_algorithm" (quoted (codes "rsa-3072-pss-sha256")),
    memberText "signing_key_id" (quoted (codes record.signingKeyId))]

/-- The text of a record, with a comma behind the last capability or without. -/
def spelled (record : ManifestRecord) (comma : Bool) : List Nat :=
  objectText (record.membersBefore ++
    [memberText "product_id" (quoted (codes record.productId)),
      memberText "product_version" (quoted (codes record.productVersion))] ++
    record.membersBehind comma)

/-- The canonical text of a record. -/
def text (record : ManifestRecord) : List Nat := record.spelled false

/-- Where the product id begins in it. -/
def productIdOffset (record : ManifestRecord) : Nat :=
  (codes "\x7b" ++ commaed record.membersBefore ++ codes ",\"product_id\":\"").length

/-- Where the product version begins in it. -/
def productVersionOffset (record : ManifestRecord) : Nat :=
  record.productIdOffset + (codes record.productId ++ codes "\",\"product_version\":\"").length

/-- What the tools ask of a record. -/
structure Valid (record : ManifestRecord) : Prop where
  productId : isIdentifier (codes record.productId) = true
  productVersion : isIdentifier (codes record.productVersion) = true
  runtimeProfile : isIdentifier (codes record.runtimeProfile) = true
  signingKeyId : isIdentifier (codes record.signingKeyId) = true
  guestAbi : 0 < record.guestAbiVersion ∧ record.guestAbiVersion ≤ uint32Max
  dataSchema : 0 < record.dataSchemaVersion ∧ record.dataSchemaVersion ≤ uint32Max
  names : ∀ name ∈ record.requiredCapabilities, isIdentifier (codes name) = true
  few : record.requiredCapabilities.length ≤ 16
  sorted : (record.requiredCapabilities.map codes).Pairwise (· < ·)
  eventQueue : 0 < record.eventQueueLimit ∧ record.eventQueueLimit ≤ uint32Max
  hostCallTimeout : 0 < record.hostCallTimeoutMs ∧ record.hostCallTimeoutMs ≤ uint32Max
  instructionBudget : 0 < record.instructionBudget ∧ record.instructionBudget ≤ uint32Max
  memory : 0 < record.memoryLimitBytes ∧ record.memoryLimitBytes ≤ uint32Max
  stack : 0 < record.stackLimitBytes ∧ record.stackLimitBytes ≤ uint32Max
  storage : record.storageLimitBytes ≤ uint32Max
  payloadSize : 8 ≤ record.payloadSizeBytes
  payloadDigest : isSha256 (codes record.payloadSha256) = true

/-- A comma behind the last capability, where there is one and the scanner has a round left. -/
def MayHaveComma (record : ManifestRecord) (comma : Bool) : Prop :=
  comma = true → 1 ≤ record.requiredCapabilities.length ∧ record.requiredCapabilities.length ≤ 15

end ManifestRecord

end Tools
