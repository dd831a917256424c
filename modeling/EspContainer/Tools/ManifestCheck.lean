/-
# Checking a manifest

`_unique_pairs`, `_json_bytes` and `_manifest` of `product_package.py`. A manifest is read as
JSON, written again and compared, and only then are its fields looked at one by one. What
may be raised is told apart: the texts of `PackageError`, and the errors of the interpreter
that the function does not catch.
-/

import EspContainer.Json.RoundTrip
import EspContainer.Tools.GuestAcceptance
import EspContainer.Tools.ManifestText

namespace Tools

open Binary Json Package Text

/-- What a tool may raise. -/
inductive Raised where
  | packageError (text : List Nat)
  | keyError
  | recursionError
  | unicodeEncodeError
  | valueError
  deriving DecidableEq

/-- A step that may raise. -/
abbrev Raising (α : Type) : Type := Except Raised α

/-- `raise PackageError(reason)`. -/
def raisePackageError {α : Type} (reason : String) : Raising α := .error (.packageError (codes reason))

/-- `raise PackageError(reason)` unless a condition holds. -/
def demand (condition : Bool) (reason : String) : Raising Unit :=
  if condition then .ok () else raisePackageError reason

/-- What the tool takes from its interpreter: floats as they are read and written, if they are
written at all, and how deep a JSON text may be nested. What was read can be written. -/
structure Interpreter (F : Type) where
  parseFloat : List Nat → F
  formatFloat : F → Option (List Nat)
  nesting : Nat

variable {F : Type}

/-! ## JSON -/

/-- One round of the loop of `_unique_pairs`. -/
def uniquePair (result : List (List Nat × Value F)) (pair : List Nat × Value F) :
    Raising (List (List Nat × Value F)) :=
  if (result.map Prod.fst).contains pair.1 then
    .error (.packageError (codes "重复 JSON 键：" ++ pair.1))
  else .ok (result ++ [pair])

/-- `_unique_pairs`. -/
def uniquePairs (pairs : List (List Nat × Value F)) : Raising (Value F) := do
  let result ← pairs.foldlM uniquePair []
  pure (.dict result)

/-- The hooks that `_manifest` hands to `json.loads`. -/
def Interpreter.decoder (interpreter : Interpreter F) : Decoder F Raised where
  parseFloat := interpreter.parseFloat
  parseConstant := fun _ => raisePackageError "非法数值"
  pairsHook := uniquePairs

/-- `text.encode("utf-8")`: lone surrogates have no encoding. -/
def encodeUtf8 (text : List Nat) : Raising (List UInt8) :=
  if text.all fun code => decide code.isValidChar then
    .ok (Guest.utf8 (String.ofList (text.map Char.ofNat)))
  else .error .unicodeEncodeError

/-- `_json_bytes`. -/
def jsonBytes (interpreter : Interpreter F) (value : Value F) : Raising (List UInt8) :=
  match write interpreter.formatFloat value with
  | none => .error .valueError
  | some text => encodeUtf8 text

/-- `json.loads(data.decode("utf-8"), ...)`, and what `_manifest` makes of its errors. -/
def readManifest (interpreter : Interpreter F) (data : List UInt8) : Raising (Value F) :=
  match GuestReader.decodeUtf8 data with
  | .error _ => raisePackageError "manifest 不是合法 UTF-8 JSON"
  | .ok text =>
      match read interpreter.decoder interpreter.nesting (codes text) with
      | .error .malformed => raisePackageError "manifest 不是合法 UTF-8 JSON"
      | .error .tooDeep => .error .recursionError
      | .error (.raised error) => .error error
      | .ok value => .ok value

/-! ## Fields -/

/-- `MANIFEST_KEYS`. -/
def manifestKeys : List (List Nat) :=
  [codes "package_format_version", codes "product_id", codes "product_version",
    codes "guest_abi_version", codes "required_capabilities", codes "runtime_profile",
    codes "limits", codes "data_schema_version", codes "payload", codes "signature_algorithm",
    codes "signing_key_id"]

/-- `LIMIT_KEYS`. -/
def limitKeys : List (List Nat) :=
  [codes "memory_limit_bytes", codes "stack_limit_bytes", codes "event_queue_limit",
    codes "instruction_budget", codes "host_call_timeout_ms", codes "storage_limit_bytes"]

/-- The keys of a payload. -/
def payloadKeys : List (List Nat) := [codes "path", codes "size_bytes", codes "sha256"]

/-- A dictionary with just these keys. -/
def dictOf (keys : List (List Nat)) (reason : String) : Value F → Raising (List (List Nat × Value F))
  | .dict members =>
      if Guest.sameElements (members.map Prod.fst) keys then .ok members else raisePackageError reason
  | _ => raisePackageError reason

/-- `members[key]`. -/
def item (members : List (List Nat × Value F)) (key : String) : Raising (Value F) :=
  match members.lookup (codes key) with
  | none => .error .keyError
  | some value => .ok value

/-- An integer, and no boolean, that passes a check. -/
def intField (members : List (List Nat × Value F)) (key : String) (accept : Int → Bool)
    (reason : String) : Raising Nat := do
  match ← item members key with
  | .int value => if accept value then .ok value.toNat else raisePackageError reason
  | _ => raisePackageError reason

/-- A string that passes a check. -/
def strField (members : List (List Nat × Value F)) (key : String) (accept : List Nat → Bool)
    (reason : String) : Raising String := do
  match ← item members key with
  | .str text =>
      if accept text then .ok (String.ofList (text.map Char.ofNat)) else raisePackageError reason
  | _ => raisePackageError reason

/-- An identifier. -/
def identifierField (members : List (List Nat × Value F)) (key : String) : Raising String :=
  strField members key isIdentifier ("非法 " ++ key)

/-- `0 < number <= 0xFFFFFFFF`. -/
def isPositiveUInt32 (number : Int) : Bool := 0 < number && number ≤ uint32Max

/-- A positive number of 32 bits. -/
def versionField (members : List (List Nat × Value F)) (key : String) : Raising Nat :=
  intField members key isPositiveUInt32 ("非法 " ++ key)

/-- The names in a list of identifiers. -/
def identifiers : List (Value F) → Option (List (List Nat))
  | [] => some []
  | .str text :: items =>
      if isIdentifier text then (identifiers items).map fun texts => text :: texts else none
  | _ :: _ => none

/-- `sorted(set(names))`. -/
def sortedSet (names : List (List Nat)) : List (List Nat) :=
  names.dedup.insertionSort fun first second => first ≤ second

/-- The checks of `required_capabilities`. -/
def capabilitiesField (members : List (List Nat × Value F)) : Raising (List String) := do
  match ← item members "required_capabilities" with
  | .list items =>
      match identifiers items with
      | some names =>
          if items.length ≤ 16 && names == sortedSet names then
            .ok (names.map fun text => String.ofList (text.map Char.ofNat))
          else raisePackageError "非法 required_capabilities"
      | none => raisePackageError "非法 required_capabilities"
  | _ => raisePackageError "非法 required_capabilities"

/-- `0` for the storage limit, and `1` for all others. -/
def limitLower (key : List Nat) : Int := if key = codes "storage_limit_bytes" then 0 else 1

/-- One round of the loop over the limits. -/
def limitValid (limit : List Nat × Value F) : Bool :=
  match limit.2 with
  | .int number => limitLower limit.1 ≤ number && number ≤ uint32Max
  | _ => false

/-- The loop over the limits. -/
def checkLimits : List (List Nat × Value F) → Raising Unit
  | [] => .ok ()
  | limit :: limits =>
      if limitValid limit then checkLimits limits
      else .error (.packageError (codes "非法限制：" ++ limit.1))

/-- A limit that the loop has accepted. -/
def limitField (limits : List (List Nat × Value F)) (key : String) : Raising Nat :=
  intField limits key (fun _ => true) ("非法限制：" ++ key)

/-- `_manifest`, with the record that the tools read in its result. -/
def manifest (interpreter : Interpreter F) (data : List UInt8) : Raising ManifestRecord := do
  demand (0 < data.length && data.length ≤ packageManifestMaxBytes) "manifest 大小超限"
  let value ← readManifest interpreter data
  let members ← dictOf manifestKeys "manifest 字段不完整或含未知字段" value
  let canonical ← jsonBytes interpreter value
  demand (data == canonical) "manifest 必须采用唯一规范编码"
  let _ ← intField members "package_format_version" (· == 1) "不支持的包格式"
  let productId ← identifierField members "product_id"
  let productVersion ← identifierField members "product_version"
  let runtimeProfile ← identifierField members "runtime_profile"
  let signingKeyId ← identifierField members "signing_key_id"
  let guestAbiVersion ← versionField members "guest_abi_version"
  let dataSchemaVersion ← versionField members "data_schema_version"
  let requiredCapabilities ← capabilitiesField members
  let limits ← item members "limits"
  let limits ← dictOf limitKeys "非法 limits 字段" limits
  checkLimits limits
  let payload ← item members "payload"
  let payload ← dictOf payloadKeys "非法 payload 字段" payload
  let _ ← strField payload "path" (· == codes "app.wasm") "非法 payload 路径"
  let payloadSizeBytes ← intField payload "size_bytes" (8 ≤ ·) "非法 payload 长度"
  let payloadSha256 ← strField payload "sha256" isSha256 "非法 payload 摘要"
  let _ ← strField members "signature_algorithm" (· == codes "rsa-3072-pss-sha256")
    "不支持的签名算法"
  let eventQueueLimit ← limitField limits "event_queue_limit"
  let hostCallTimeoutMs ← limitField limits "host_call_timeout_ms"
  let instructionBudget ← limitField limits "instruction_budget"
  let memoryLimitBytes ← limitField limits "memory_limit_bytes"
  let stackLimitBytes ← limitField limits "stack_limit_bytes"
  let storageLimitBytes ← limitField limits "storage_limit_bytes"
  pure
    { dataSchemaVersion, guestAbiVersion, eventQueueLimit, hostCallTimeoutMs, instructionBudget,
      memoryLimitBytes, stackLimitBytes, storageLimitBytes, payloadSha256, payloadSizeBytes,
      productId, productVersion, requiredCapabilities, runtimeProfile
      signingKeyId := signingKeyId }

end Tools
