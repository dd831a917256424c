/-
# The manifest scanner

`package_stream.c` reads the signed manifest with a scanner that knows the one
canonical order of its fields. The functions here are that scanner, over a
cursor with the bytes behind it; a false return is failure, and what the C code
writes through its output pointers is returned.
-/

import EspContainer.Package.Crypto
import EspContainer.Text.Parser

namespace Package

open Binary Text

/-- The JSON scanner `econtainer_json_t`. -/
abbrev JsonParser (α : Type) : Type := Parser α

/-- `ECONTAINER_CAP_MONOTONIC_TIME`. -/
def capMonotonicTime : UInt32 := 1

/-- `ECONTAINER_CAP_LOG`. -/
def capLog : UInt32 := 2

/-- `ECONTAINER_CAP_TIMER`. -/
def capTimer : UInt32 := 4

/-- `ECONTAINER_CAP_ALL`. -/
def capAll : UInt32 := capMonotonicTime ||| capLog ||| capTimer

/-- A slice of the manifest, by its offset and its bytes. -/
structure Identifier where
  offsetBytes : Nat
  bytes : List UInt8
  deriving DecidableEq

/-- `econtainer_manifest_t`. -/
structure Manifest where
  wasmSizeBytes : UInt32
  wasmSha256 : Sha256
  guestAbiVersion : UInt32
  dataSchemaVersion : UInt32
  memoryLimitBytes : UInt32
  stackLimitBytes : UInt32
  eventQueueLimit : UInt32
  instructionBudget : UInt32
  hostCallTimeoutMs : UInt32
  storageLimitBytes : UInt32
  productId : Identifier
  productVersion : Identifier
  requestedCapabilities : UInt32
  hasUnknownCapability : Bool
  isClassicProfile : Bool
  deriving DecidableEq

/-! ## Tokens -/

/-- `json_literal`. -/
def jsonLiteral (text : String) : JsonParser Unit := Parser.literal (ascii text)

/-- `'0' <= byte <= '9'`. -/
def isDigit (byte : UInt8) : Bool := 48 ≤ byte && byte ≤ 57

/-- `byte - '0'`. -/
def digitValue (byte : UInt8) : Nat := byte.toNat - 48

/-- The digit loop of `json_uint32`: the value and number of the digits read, and
the cursor behind them. -/
def jsonDigits (value digits : Nat) (position : Nat) :
    List UInt8 → Option ((Nat × Nat) × Cursor)
  | [] => some ((value, digits), ⟨position, []⟩)
  | byte :: rest =>
      if isDigit byte then
        if digits + 1 > 10 || value * 10 + digitValue byte > uint32Max then
          none
        else
          jsonDigits (value * 10 + digitValue byte) (digits + 1) (position + 1) rest
      else
        some ((value, digits), ⟨position, byte :: rest⟩)

/-- `json_uint32`. -/
def jsonUint32 (allowZero : Bool) : JsonParser UInt32 := fun cursor =>
  let startsZero := cursor.rest.head? == some 48
  match jsonDigits 0 0 cursor.position cursor.rest with
  | none => none
  | some ((value, digits), behind) =>
      if digits == 0 || (startsZero && digits != 1) || (!allowZero && value == 0) then
        none
      else
        some (UInt32.ofNat value, behind)

/-- A lower-case letter or a digit. -/
def isAlphanumeric (byte : UInt8) : Bool := (97 ≤ byte && byte ≤ 122) || isDigit byte

/-- The loop of `json_identifier`. `taken` is what was read so far, latest byte
first, so an empty list is the beginning and its head the previous byte. -/
def jsonIdentifierLoop (taken : List UInt8) (position : Nat) :
    List UInt8 → Option (List UInt8 × Cursor)
  | [] => some (taken, ⟨position, []⟩)
  | byte :: rest =>
      if !isAlphanumeric byte && byte != 45 then
        some (taken, ⟨position, byte :: rest⟩)
      else if byte == 45 && (taken.isEmpty || taken.head? == some 45) then
        none
      else
        jsonIdentifierLoop (byte :: taken) (position + 1) rest

/-- The bytes of `json_identifier` between the quotes. -/
def jsonIdentifierBytes : JsonParser (List UInt8) := fun cursor =>
  match jsonIdentifierLoop [] cursor.position cursor.rest with
  | none => none
  | some (taken, behind) =>
      if taken.isEmpty || taken.head? == some 45 then none else some (taken.reverse, behind)

/-- `json_identifier`. -/
def jsonIdentifier : JsonParser Identifier := do
  jsonLiteral "\""
  let start ← Parser.position
  let bytes ← jsonIdentifierBytes
  jsonLiteral "\""
  pure ⟨start, bytes⟩

/-- `json_identifier_key`. -/
def jsonIdentifierKey (key : String) : JsonParser Unit := do
  jsonLiteral "\""
  jsonLiteral key
  jsonLiteral "\":"

/-- `json_number_key`. -/
def jsonNumberKey (key : String) (allowZero : Bool) : JsonParser UInt32 := do
  jsonIdentifierKey key
  jsonUint32 allowZero

/-- `json_identifier_value`. -/
def jsonIdentifierValue (key : String) : JsonParser Identifier := do
  jsonIdentifierKey key
  jsonIdentifier

/-! ## Fields -/

/-- `json_runtime_profile`. -/
def jsonRuntimeProfile : JsonParser Bool := do
  let identifier ← jsonIdentifierValue "runtime_profile"
  pure (identifier.bytes == ascii "wamr-classic-v1")

/-- The capabilities found so far. -/
structure Capabilities where
  requested : UInt32
  unknown : Bool
  deriving DecidableEq

/-- The effect of one capability name. -/
def Capabilities.add (capabilities : Capabilities) (name : List UInt8) : Capabilities :=
  if name == ascii "monotonic-time" then
    { capabilities with requested := capabilities.requested ||| capMonotonicTime }
  else if name == ascii "log" then
    { capabilities with requested := capabilities.requested ||| capLog }
  else if name == ascii "timer" then
    { capabilities with requested := capabilities.requested ||| capTimer }
  else
    { capabilities with unknown := true }

/-- `memcmp` of the first `count` bytes of both, as an ordering. -/
def compareBytes (count : Nat) (first second : List UInt8) : Ordering :=
  compareOfLessAndEq (first.take count) (second.take count)

/-- The order check of `json_caps`: the previous name is strictly smaller. -/
def inOrder (previous current : List UInt8) : Bool :=
  let comparison := compareBytes (min previous.length current.length) previous current
  !(comparison == .gt || (comparison == .eq && previous.length ≥ current.length))

/-- The loop of `json_caps`; the first argument counts the iterations left. -/
def jsonCapsLoop : Nat → Option (List UInt8) → Capabilities → JsonParser Capabilities
  | 0, _, _ => Parser.reject
  | count + 1, previous, capabilities =>
      Parser.either (ascii "]") (pure capabilities) do
        let current ← jsonIdentifier
        Parser.guard (previous.all fun previous => inOrder previous current.bytes)
        let capabilities := capabilities.add current.bytes
        Parser.either (ascii "]") (pure capabilities) do
          jsonLiteral ","
          jsonCapsLoop count (some current.bytes) capabilities

/-- `json_caps`. -/
def jsonCaps : JsonParser Capabilities := do
  jsonIdentifierKey "required_capabilities"
  jsonLiteral "["
  jsonCapsLoop 16 none ⟨0, false⟩

/-- The value of a lower-case hexadecimal digit. -/
def hexValue (byte : UInt8) : Option UInt8 :=
  if isDigit byte then
    some (byte - 48)
  else if 97 ≤ byte && byte ≤ 102 then
    some (byte - 97 + 10)
  else
    none

/-- The loop of `json_sha256`: so many bytes, two digits each. -/
def jsonHex : Nat → List UInt8 → Option (List UInt8 × List UInt8)
  | 0, rest => some ([], rest)
  | count + 1, high :: low :: rest => do
      let first ← hexValue high
      let second ← hexValue low
      let (octets, rest) ← jsonHex count rest
      pure ((first <<< 4 ||| second) :: octets, rest)
  | _ + 1, _ => none

/-- The 64 digits of `json_sha256`. -/
def jsonSha256Digits : JsonParser Sha256 := fun cursor =>
  if cursor.rest.length < 65 then
    none
  else
    match jsonHex 32 cursor.rest with
    | none => none
    | some (octets, rest) => some (bytesAt octets 0 32, ⟨cursor.position + 64, rest⟩)

/-- `json_sha256`. -/
def jsonSha256 : JsonParser Sha256 := do
  jsonLiteral "\""
  let digest ← jsonSha256Digits
  jsonLiteral "\""
  pure digest

/-! ## The manifest -/

/-- The body of `parse_manifest`, up to its last check that nothing is left. -/
def jsonManifest (expectedKeyId : List UInt8) (maxWasmBytes : Nat) : JsonParser Manifest := do
  jsonLiteral "\x7b"
  let dataSchemaVersion ← jsonNumberKey "data_schema_version" false
  jsonLiteral ","
  let guestAbiVersion ← jsonNumberKey "guest_abi_version" false
  jsonLiteral ",\"limits\":\x7b"
  let eventQueueLimit ← jsonNumberKey "event_queue_limit" false
  jsonLiteral ","
  let hostCallTimeoutMs ← jsonNumberKey "host_call_timeout_ms" false
  jsonLiteral ","
  let instructionBudget ← jsonNumberKey "instruction_budget" false
  jsonLiteral ","
  let memoryLimitBytes ← jsonNumberKey "memory_limit_bytes" false
  jsonLiteral ","
  let stackLimitBytes ← jsonNumberKey "stack_limit_bytes" false
  jsonLiteral ","
  let storageLimitBytes ← jsonNumberKey "storage_limit_bytes" true
  jsonLiteral "\x7d,"
  let number ← jsonNumberKey "package_format_version" false
  Parser.guard (number == 1)
  jsonLiteral ",\"payload\":\x7b"
  jsonIdentifierKey "path"
  jsonLiteral "\"app.wasm\","
  jsonIdentifierKey "sha256"
  let wasmSha256 ← jsonSha256
  jsonLiteral ","
  let wasmSizeBytes ← jsonNumberKey "size_bytes" false
  Parser.guard (8 ≤ wasmSizeBytes && wasmSizeBytes.toNat ≤ maxWasmBytes)
  jsonLiteral "\x7d,"
  let productId ← jsonIdentifierValue "product_id"
  jsonLiteral ","
  let productVersion ← jsonIdentifierValue "product_version"
  jsonLiteral ","
  let capabilities ← jsonCaps
  jsonLiteral ","
  let isClassicProfile ← jsonRuntimeProfile
  jsonLiteral ",\"signature_algorithm\":\"rsa-3072-pss-sha256\","
  let keyId ← jsonIdentifierValue "signing_key_id"
  Parser.guard (keyId.bytes == expectedKeyId)
  jsonLiteral "\x7d"
  pure
    { wasmSizeBytes, wasmSha256, guestAbiVersion, dataSchemaVersion, memoryLimitBytes,
      stackLimitBytes, eventQueueLimit, instructionBudget, hostCallTimeoutMs,
      storageLimitBytes, productId, productVersion, isClassicProfile
      requestedCapabilities := capabilities.requested
      hasUnknownCapability := capabilities.unknown }

/-- `parse_manifest`. -/
def parseManifest (data expectedKeyId : List UInt8) (maxWasmBytes : Nat) : Option Manifest :=
  match jsonManifest expectedKeyId maxWasmBytes ⟨0, data⟩ with
  | some (manifest, behind) => if behind.position == data.length then some manifest else none
  | none => none

end Package
