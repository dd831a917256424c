/-
# Building and verifying packages

The commands of `product_package.py`: making a manifest from a specification, signing it,
packing the three members, and verifying a package. The cryptography library and the
interpreter are parameters; keys are passed as what their files contain.
-/

import EspContainer.Tools.Archive
import EspContainer.Tools.ManifestCheck

namespace Tools

open Binary Json Package Text

/-- A key as the library loads it. -/
inductive LoadedKey (K : Type) where
  | rsa (key : K) (sizeBits : Nat)
  | other

/-- What the tool takes from its libraries for hashes and signatures. Loading may raise, and a
signature depends on a salt. -/
structure Cryptography (P S : Type) where
  sha256 : List UInt8 → Sha256
  loadPublicKey : List UInt8 → Raising (LoadedKey P)
  loadPrivateKey : List UInt8 → Raising (LoadedKey S)
  sign : (key : S) → (salt message : List UInt8) → List UInt8
  verify : (key : P) → (message signature : List UInt8) → Bool

variable {F P S : Type}

/-- `hexdigest()`. -/
def hexDigest (digest : Sha256) : String := String.ofList ((hexText digest.toList).map Char.ofNat)

/-- A step that raises `PackageError` only. -/
def checked {α : Type} : Checked α → Raising α
  | .error reason => raisePackageError reason
  | .ok value => .ok value

theorem checked_eq_ok {α : Type} {step : Checked α} {value : α} :
    checked step = .ok value ↔ step = .ok value := by
  cases step with
  | error reason => simp [checked, raisePackageError]
  | ok result => simp [checked]

/-! ## Keys -/

/-- An RSA key of 3072 bits. -/
def rsa3072 {K : Type} (reason : String) : LoadedKey K → Raising K
  | .rsa key sizeBits => if sizeBits = 3072 then .ok key else raisePackageError reason
  | .other => raisePackageError reason

/-- `_private_key`. -/
def privateKey (cryptography : Cryptography P S) (pem : List UInt8) : Raising S := do
  rsa3072 "签名私钥必须为 RSA-3072" (← cryptography.loadPrivateKey pem)

/-- `_public_key`. -/
def publicKey (cryptography : Cryptography P S) (pem : List UInt8) : Raising P := do
  rsa3072 "验证公钥必须为 RSA-3072" (← cryptography.loadPublicKey pem)

/-! ## Manifests and signatures -/

/-- `members[key] = value`: in the place of the key, or behind all others. -/
def setItem (members : List (List Nat × Value F)) (key : String) (value : Value F) :
    List (List Nat × Value F) :=
  if (members.map Prod.fst).contains (codes key) then
    members.map fun member => if member.1 = codes key then (member.1, value) else member
  else members ++ [(codes key, value)]

/-- `create_manifest`, of a specification that is a dictionary. -/
def createManifest (interpreter : Interpreter F) (cryptography : Cryptography P S)
    (spec : List (List Nat × Value F)) (wasm : List UInt8) : Raising (List UInt8) := do
  let value := setItem spec "package_format_version" (.int 1)
  let value := setItem value "signature_algorithm" (.str (codes "rsa-3072-pss-sha256"))
  let value := setItem value "payload" <| .dict
    [(codes "path", .str (codes "app.wasm")), (codes "size_bytes", .int wasm.length),
      (codes "sha256", .str (codes (hexDigest (cryptography.sha256 wasm))))]
  let data ← jsonBytes interpreter (.dict value)
  let record ← manifest interpreter data
  checked (checkDeclaredCapabilities wasm record)
  pure data

/-- `sign_manifest`. -/
def signManifest (interpreter : Interpreter F) (cryptography : Cryptography P S)
    (manifestBytes pem : List UInt8) (expectedKeyId : String) (salt : List UInt8) :
    Raising (List UInt8) := do
  let record ← manifest interpreter manifestBytes
  demand (record.signingKeyId == expectedKeyId) "manifest 签名 key ID 与受控输入不一致"
  let key ← privateKey cryptography pem
  pure (cryptography.sign key salt (packageDomain ++ manifestBytes))

/-- `verify_signature`. -/
def verifySignature (cryptography : Cryptography P S) (manifestBytes signature pem : List UInt8) :
    Raising Unit := do
  demand (signature.length == packageSignatureBytes) "签名长度错误"
  let key ← publicKey cryptography pem
  demand (cryptography.verify key (packageDomain ++ manifestBytes) signature) "签名验证失败"

/-! ## Packages -/

/-- `TarFile.addfile`, of a file with as many bytes as the header says. -/
def addfile (archive : List UInt8) (info : TarInfo) (data : List UInt8) : Raising (List UInt8) :=
  match info.tobuf with
  | none => .error .valueError
  | some header =>
      .ok (archive ++ header ++ data ++
        List.replicate ((tarBlockBytes - info.size % tarBlockBytes) % tarBlockBytes) 0)

/-- `TarFile.close`: two blocks of zeros, filled up to a whole record. -/
def closeArchive (archive : List UInt8) : List UInt8 :=
  let ended := archive ++ List.replicate (tarBlockBytes * 2) 0
  let remainder := ended.length % tarRecordBytes
  if remainder > 0 then ended ++ List.replicate (tarRecordBytes - remainder) 0 else ended

/-- The check of a payload against a record. -/
def payloadMatches (cryptography : Cryptography P S) (record : ManifestRecord) (wasm : List UInt8) :
    Bool :=
  record.payloadSizeBytes == wasm.length &&
    record.payloadSha256 == hexDigest (cryptography.sha256 wasm)

/-- `pack`. -/
def pack (interpreter : Interpreter F) (cryptography : Cryptography P S)
    (manifestBytes signature wasm : List UInt8) (maxWasmBytes : Nat) : Raising (List UInt8) := do
  let record ← manifest interpreter manifestBytes
  demand (signature.length == packageSignatureBytes && wasm.length ≤ maxWasmBytes)
    "签名或 Wasm 长度超限"
  demand (payloadMatches cryptography record wasm) "Wasm 与 manifest 不匹配"
  checked (checkDeclaredCapabilities wasm record)
  let archive ← addfile [] (memberInfo manifestName manifestBytes.length) manifestBytes
  let archive ← addfile archive (memberInfo signatureName signature.length) signature
  let archive ← addfile archive (memberInfo wasmName wasm.length) wasm
  pure (closeArchive archive)

/-- `verify_package`. -/
def verifyPackage (interpreter : Interpreter F) (cryptography : Cryptography P S)
    (package pem : List UInt8) (expectedKeyId : String) (maxWasmBytes : Nat) :
    Raising ManifestRecord := do
  let members ← checked (unpack package maxWasmBytes)
  let record ← manifest interpreter members.1
  demand (record.signingKeyId == expectedKeyId) "manifest 签名 key ID 与信任锚不一致"
  verifySignature cryptography members.1 members.2.1 pem
  demand (payloadMatches cryptography record members.2.2) "Wasm 摘要或长度错误"
  checked (checkDeclaredCapabilities members.2.2 record)
  pure record

end Tools
