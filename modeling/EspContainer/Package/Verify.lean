/-
# Package verification

`econtainer_package_verify` reads a package front to back in blocks of at most
512 bytes and never goes back: two archive members that fit in memory, the
manifest and its signature, and one that does not, the Wasm payload, which is
only hashed. The stream remembers where it is and what its digest was fed.

The result of the body is what the C function leaves in its workspace and its
info output; the function around it clears both on every other way out.
-/

import EspContainer.Package.Manifest
import EspContainer.Package.Tar

namespace Package

open Binary Interaction

/-- `ECONTAINER_PACKAGE_MANIFEST_MAX_BYTES`. -/
abbrev packageManifestMaxBytes : Nat := 4096

/-- `ECONTAINER_PACKAGE_SIGNATURE_BYTES`. -/
abbrev packageSignatureBytes : Nat := 384

/-- `ECONTAINER_PACKAGE_WASM_MAX_BYTES`. -/
abbrev packageWasmMaxBytes : Nat := 524288

/-- The results of `econtainer_package_result_t` other than OK. -/
inductive PackageError
  | invalid
  | untrusted
  | readFailed
  deriving DecidableEq

/-- `econtainer_package_info_t`. -/
structure Info where
  packageSizeBytes : Nat
  manifestSizeBytes : Nat
  productIdOffsetBytes : Nat
  productIdSizeBytes : Nat
  productVersionOffsetBytes : Nat
  productVersionSizeBytes : Nat
  wasmOffsetBytes : Nat
  wasmSizeBytes : Nat
  wasmSha256 : Sha256
  packageSha256 : Sha256
  guestAbiVersion : UInt32
  dataSchemaVersion : UInt32
  memoryLimitBytes : UInt32
  stackLimitBytes : UInt32
  eventQueueLimit : UInt32
  instructionBudget : UInt32
  hostCallTimeoutMs : UInt32
  storageLimitBytes : UInt32
  requestedCapabilities : UInt32
  hasUnknownCapability : Bool
  isClassicProfile : Bool
  deriving DecidableEq

/-- The info that `memset` leaves. -/
def Info.zero : Info where
  packageSizeBytes := 0
  manifestSizeBytes := 0
  productIdOffsetBytes := 0
  productIdSizeBytes := 0
  productVersionOffsetBytes := 0
  productVersionSizeBytes := 0
  wasmOffsetBytes := 0
  wasmSizeBytes := 0
  wasmSha256 := .zero 32
  packageSha256 := .zero 32
  guestAbiVersion := 0
  dataSchemaVersion := 0
  memoryLimitBytes := 0
  stackLimitBytes := 0
  eventQueueLimit := 0
  instructionBudget := 0
  hostCallTimeoutMs := 0
  storageLimitBytes := 0
  requestedCapabilities := 0
  hasUnknownCapability := false
  isClassicProfile := false

/-- `econtainer_package_workspace_t`, less the block that every read overwrites. -/
structure Workspace where
  manifest : Bytes packageManifestMaxBytes
  signature : Bytes packageSignatureBytes
  deriving DecidableEq

/-- The workspace with manifest and signature cleared. -/
def Workspace.zero : Workspace := ⟨.zero _, .zero _⟩

/-- A buffer whose beginning was overwritten. -/
def overwrite {n : Nat} (buffer : Bytes n) (bytes : List UInt8) : Bytes n :=
  bytesAt (bytes ++ buffer.toList.drop bytes.length) 0 n

/-! ## The stream -/

/-- `econtainer_package_stream_t`, with the bytes its digest was fed. -/
structure Stream where
  sizeBytes : Nat
  cursor : Nat
  digest : List UInt8

/-- A function of the reader: a result other than OK is returned at once. -/
abbrev Reading (α : Type) : Type := Fallible ReadPort PackageError α

/-- One digest primitive; if it fails the package is invalid. -/
def digestStep (step : DigestCall) : Reading Unit := do
  let done ← Fallible.attempt (Program.call (I := ReadPort) (.digest step))
  Fallible.require done .invalid

/-- `stream_read`. -/
def streamRead (stream : Stream) (sizeBytes : Nat) : Reading (Bytes sizeBytes × Stream) := do
  Fallible.require
    (!(sizeBytes > tarBlockBytes || sizeBytes > stream.sizeBytes - stream.cursor)) .invalid
  let answer ← Fallible.attempt (Program.call (I := ReadPort) (.read stream.cursor sizeBytes))
  match answer with
  | .failed _ => throw .readFailed
  | .ok bytes =>
      digestStep (.update bytes.toList)
      pure (bytes,
        { stream with
          cursor := stream.cursor + sizeBytes
          digest := stream.digest ++ bytes.toList })

/-- `stream_bytes`. -/
def streamBytes (stream : Stream) (sizeBytes : Nat) : Reading (List UInt8 × Stream) :=
  Fallible.chunked tarBlockBytes sizeBytes
    (fun _ amount (destination, stream) => do
      let (bytes, stream) ← streamRead stream amount
      pure (destination ++ bytes.toList, stream))
    ([], stream)

/-- `stream_zeros`. -/
def streamZeros (stream : Stream) (sizeBytes : Nat) : Reading Stream :=
  Fallible.chunked tarBlockBytes sizeBytes
    (fun _ amount stream => do
      let (block, stream) ← streamRead stream amount
      Fallible.require (block.toList.all fun byte => byte == 0) .invalid
      pure stream)
    stream

/-- `stream_header`: the size of a member of this name. -/
def streamHeader (stream : Stream) (name : List UInt8) : Reading (Nat × Stream) := do
  let (block, stream) ← streamRead stream tarBlockBytes
  match tarSize block with
  | none => throw .invalid
  | some sizeBytes =>
      Fallible.require (tarHeaderMatches block name sizeBytes) .invalid
      pure (sizeBytes, stream)

/-- The eight bytes before every Wasm module of version 1. -/
def wasmHeader : List UInt8 := [0] ++ ascii "asm" ++ [1, 0, 0, 0]

/-- The payload loop of `econtainer_package_verify`: what the payload digest is fed. -/
def streamWasm (stream : Stream) (memberSize : Nat) : Reading (List UInt8 × Stream) :=
  Fallible.chunked tarBlockBytes memberSize
    (fun offset amount (digest, stream) => do
      let (block, stream) ← streamRead stream amount
      Fallible.require (offset != 0 || block.toList.take wasmHeader.length == wasmHeader) .invalid
      digestStep (.update block.toList)
      pure (digest ++ block.toList, stream))
    ([], stream)

/-! ## Verification -/

/-- The zeros behind a member of this size. -/
def paddingBytes (memberSize : Nat) : Nat :=
  (tarBlockBytes - memberSize % tarBlockBytes) % tarBlockBytes

/-- What a successful verification leaves in the info output and the workspace. -/
structure Verified where
  info : Info
  manifest : List UInt8
  signature : List UInt8
  deriving DecidableEq

/-- The info copied from the manifest and the stream. -/
def Manifest.info (manifest : Manifest) (packageSizeBytes manifestSizeBytes wasmOffsetBytes
    memberSize : Nat) (wasmSha256 packageSha256 : Sha256) : Info where
  packageSizeBytes := packageSizeBytes
  manifestSizeBytes := manifestSizeBytes
  productIdOffsetBytes := manifest.productId.offsetBytes
  productIdSizeBytes := manifest.productId.bytes.length
  productVersionOffsetBytes := manifest.productVersion.offsetBytes
  productVersionSizeBytes := manifest.productVersion.bytes.length
  wasmOffsetBytes := wasmOffsetBytes
  wasmSizeBytes := memberSize
  wasmSha256 := wasmSha256
  packageSha256 := packageSha256
  guestAbiVersion := manifest.guestAbiVersion
  dataSchemaVersion := manifest.dataSchemaVersion
  memoryLimitBytes := manifest.memoryLimitBytes
  stackLimitBytes := manifest.stackLimitBytes
  eventQueueLimit := manifest.eventQueueLimit
  instructionBudget := manifest.instructionBudget
  hostCallTimeoutMs := manifest.hostCallTimeoutMs
  storageLimitBytes := manifest.storageLimitBytes
  requestedCapabilities := manifest.requestedCapabilities
  hasUnknownCapability := manifest.hasUnknownCapability
  isClassicProfile := manifest.isClassicProfile

/-- The first member: the manifest, parsed. -/
def verifyManifest (expectedKeyId : List UInt8) (maxWasmBytes : Nat) (stream : Stream) :
    Reading (List UInt8 × Manifest × Stream) := do
  let (memberSize, stream) ← streamHeader stream (ascii "manifest.json")
  Fallible.require (!(memberSize == 0 || memberSize > packageManifestMaxBytes)) .invalid
  let (manifestBytes, stream) ← streamBytes stream memberSize
  let stream ← streamZeros stream (paddingBytes memberSize)
  match parseManifest manifestBytes expectedKeyId maxWasmBytes with
  | none => throw .invalid
  | some manifest => pure (manifestBytes, manifest, stream)

/-- The second member: the signature of the manifest. -/
def verifySignature (crypto : Crypto) (publicKey manifestBytes : List UInt8) (stream : Stream) :
    Reading (List UInt8 × Stream) := do
  let (memberSize, stream) ← streamHeader stream (ascii "signature.bin")
  Fallible.require (memberSize == packageSignatureBytes) .invalid
  let (signature, stream) ← streamBytes stream memberSize
  let stream ← streamZeros stream (tarBlockBytes - memberSize)
  Fallible.require (signatureVerify crypto publicKey manifestBytes signature) .untrusted
  pure (signature, stream)

/-- The third member: the payload, of the size and the digest in the manifest. Returns
what its digest was fed and where it began. -/
def verifyPayload (crypto : Crypto) (manifest : Manifest) (maxWasmBytes : Nat) (stream : Stream) :
    Reading (List UInt8 × Nat × Stream) := do
  let (memberSize, stream) ← streamHeader stream (ascii "app.wasm")
  Fallible.require
    (!(memberSize != manifest.wasmSizeBytes.toNat || memberSize < 8 ||
      memberSize > maxWasmBytes)) .invalid
  let wasmOffsetBytes := stream.cursor
  digestStep .start
  let (wasm, stream) ← streamWasm stream memberSize
  digestStep .finish
  Fallible.require (crypto.sha256 wasm == manifest.wasmSha256) .invalid
  let stream ← streamZeros stream (paddingBytes memberSize)
  pure (wasm, wasmOffsetBytes, stream)

/-- The end of the archive. -/
def verifyEnd (packageSizeBytes : Nat) (stream : Stream) : Reading Stream := do
  let endMinimum := stream.cursor + 2 * tarBlockBytes
  let canonicalSize := (endMinimum + tarRecordBytes - 1) / tarRecordBytes * tarRecordBytes
  Fallible.require (canonicalSize == packageSizeBytes) .invalid
  let stream ← streamZeros stream (packageSizeBytes - stream.cursor)
  digestStep .finish
  pure stream

/-- `econtainer_package_verify` behind its argument checks and its first digest start. -/
def verifyStream (crypto : Crypto) (packageSizeBytes maxWasmBytes : Nat)
    (publicKey expectedKeyId : List UInt8) : Reading Verified := do
  let stream : Stream := ⟨packageSizeBytes, 0, []⟩
  let (manifestBytes, manifest, stream) ← verifyManifest expectedKeyId maxWasmBytes stream
  let (signature, stream) ← verifySignature crypto publicKey manifestBytes stream
  let (wasm, wasmOffsetBytes, stream) ← verifyPayload crypto manifest maxWasmBytes stream
  let stream ← verifyEnd packageSizeBytes stream
  pure
    { info := manifest.info packageSizeBytes manifestBytes.length wasmOffsetBytes wasm.length
        (crypto.sha256 wasm) (crypto.sha256 stream.digest)
      manifest := manifestBytes
      signature := signature }

/-- What `econtainer_package_verify` returns and leaves behind its two output pointers. -/
structure VerifyOutcome where
  result : Except PackageError Unit
  workspace : Option Workspace
  info : Info

/-- The end of `econtainer_package_verify`: a verified package is left in the outputs, and
on every other way out they are cleared. -/
def verifyOutcome (buffers : Workspace) : Except PackageError Verified → VerifyOutcome
  | .error error => ⟨.error error, some .zero, .zero⟩
  | .ok verified => ⟨.ok (), some ⟨overwrite buffers.manifest verified.manifest,
      overwrite buffers.signature verified.signature⟩, verified.info⟩

/-- The arguments of `econtainer_package_verify` that its first check looks at; a null
pointer is `none` or `false`. -/
structure VerifyArguments where
  hasReadFn : Bool
  packageSizeBytes : Nat
  maxWasmBytes : Nat
  publicKey : Option (List UInt8)
  expectedKeyId : Option (List UInt8)
  hasInfo : Bool

/-- The first check of `econtainer_package_verify`, behind its null pointer checks. -/
def VerifyArguments.refused (arguments : VerifyArguments) (publicKey : List UInt8) : Bool :=
  !arguments.hasReadFn || publicKey.length == 0 || publicKey.length > 1024 ||
    !arguments.hasInfo || arguments.maxWasmBytes < 8 ||
    arguments.maxWasmBytes > packageWasmMaxBytes ||
    arguments.packageSizeBytes % tarBlockBytes != 0 ||
    arguments.packageSizeBytes > arguments.maxWasmBytes + packageManifestMaxBytes + 8192

/-- `econtainer_package_verify`. -/
def packageVerify (crypto : Crypto) (arguments : VerifyArguments) (workspace : Option Workspace) :
    Program ReadPort VerifyOutcome :=
  match arguments.publicKey, arguments.expectedKeyId, workspace with
  | some publicKey, some expectedKeyId, some buffers =>
      if arguments.refused publicKey then
        pure ⟨.error .invalid, workspace, .zero⟩
      else do
        let started ← Program.call (I := ReadPort) (.digest .start)
        if !started then
          pure ⟨.error .invalid, workspace, .zero⟩
        else
          verifyOutcome buffers <$> (verifyStream crypto arguments.packageSizeBytes
            arguments.maxWasmBytes publicKey expectedKeyId).run
  | _, _, _ => pure ⟨.error .invalid, workspace, .zero⟩

end Package
