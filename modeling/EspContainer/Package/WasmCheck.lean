/-
# The package's Wasm check

`econtainer_package_wasm_check` runs the scanner over a one-block cache of the
payload. Serving a byte either answers from the cached block or reads the block
that holds it, and a failed read sets `read_failed` for good. The scanner does not
see the difference between a byte that is not there and one that was not read; the
check around it asks the flag when a scanning function returns false.
-/

import EspContainer.Package.WasmScan

namespace Package

open Binary Interaction

/-- `WASM_READ_BYTES`. -/
abbrev wasmReadBytes : Nat := 512

/-- The results of `econtainer_package_wasm_result_t` other than OK. -/
inductive WasmError
  | invalid
  | unsupported
  | notAuthorized
  | readFailed
  deriving DecidableEq

/-- `econtainer_wasm_authorization_t`. -/
structure WasmAuthorization where
  allowedCapabilities : UInt32
  maxMemoryBytes : UInt32
  maxStackBytes : UInt32
  deriving DecidableEq

/-- `wasm_reader_t`: where the payload is, and the cached block. -/
structure WasmReader where
  base : Nat
  size : Nat
  block : List UInt8
  cachedBegin : Nat
  cachedSize : Nat
  readFailed : Bool
  deriving DecidableEq

/-- `byte_at`. -/
def serveByte (offset : Nat) (reader : WasmReader) :
    Program ReadPort (Option UInt8 × WasmReader) :=
  if offset ≥ reader.size then
    pure (none, reader)
  else if reader.cachedSize == 0 || offset < reader.cachedBegin ||
      offset - reader.cachedBegin ≥ reader.cachedSize then do
    let start := offset / wasmReadBytes * wasmReadBytes
    let amount := min wasmReadBytes (reader.size - start)
    let answer ← Program.call (I := ReadPort) (.read (reader.base + start) amount)
    match answer with
    | .failed _ => pure (none, { reader with readFailed := true, cachedSize := 0 })
    | .ok bytes =>
        pure (some (Binary.byteAt bytes.toList (offset - start)),
          { reader with block := bytes.toList, cachedBegin := start, cachedSize := amount })
  else
    pure (some (Binary.byteAt reader.block (offset - reader.cachedBegin)), reader)

/-- A function of the check: a result other than OK is returned at once. -/
abbrev Checking (α : Type) : Type := Fallible ReadPort WasmError α

/-- The result when a scanning function returned false. -/
def WasmReader.verdict (reader : WasmReader) : WasmError :=
  if reader.readFailed then .readFailed else .invalid

/-- Run a scanning function. `none` is the unsupported flag; a false return is the
result of the check. -/
def scanned {α : Type} (scan : Scan α) (reader : WasmReader) :
    Checking (Option α × WasmReader) := do
  let (result, reader) ← Fallible.attempt (scan.run.interpret serveByte reader)
  match result with
  | .ok value => pure (some value, reader)
  | .error .unsupported => pure (none, reader)
  | .error .failed => throw reader.verdict

/-- The first two arguments checks of `econtainer_package_wasm_check`: the bounds of the
payload and of the requests. -/
def wasmBoundsValid (info : Info) (authorization : WasmAuthorization) : Bool :=
  !(info.wasmSizeBytes < 8 || info.wasmSizeBytes > packageWasmMaxBytes ||
    info.wasmOffsetBytes > info.packageSizeBytes ||
    info.wasmSizeBytes > info.packageSizeBytes - info.wasmOffsetBytes ||
    info.requestedCapabilities &&& ~~~capAll != 0 ||
    info.memoryLimitBytes.toNat < wasmPageBytes || info.stackLimitBytes == 0 ||
    authorization.allowedCapabilities &&& ~~~capAll != 0 ||
    authorization.maxMemoryBytes.toNat < wasmPageBytes || authorization.maxStackBytes == 0)

/-- The module's profile is the one this check is for. -/
def wasmProfileSupported (info : Info) : Bool :=
  !(info.guestAbiVersion != 1 || !info.isClassicProfile || info.hasUnknownCapability)

/-- The signed requests are within the authorization. -/
def wasmAuthorized (info : Info) (authorization : WasmAuthorization) : Bool :=
  !(info.requestedCapabilities &&& ~~~authorization.allowedCapabilities != 0 ||
    info.memoryLimitBytes > authorization.maxMemoryBytes ||
    info.stackLimitBytes > authorization.maxStackBytes)

/-- The signature of the entry point of an index: `event_params` for the second. -/
def entryParams : ExportName → List UInt8
  | .onEvent => [0x7f, 0x7f]
  | _ => []

/-- `i32_result`. -/
def entryResults : List UInt8 := [0x7f]

/-- The loop over the three entry points; returns `abi.defined_count`. -/
def checkEntries (sections : WasmSections) (imports : WasmImports) (exported : WasmExports)
    (typeCount : Nat) : List ExportName → Nat → WasmReader → Checking (Nat × WasmReader)
  | [], definedCount, reader => pure (definedCount, reader)
  | name :: names, _, reader => do
      Fallible.require (!(exported.functions name < imports.count)) .unsupported
      let (entry, reader) ← scanned
        (do
          let (typeIndex, definedCount) ← functionType (sections 3)
            (exported.functions name - imports.count) typeCount
          typeMatches (sections 1) typeIndex (entryParams name) entryResults
          pure definedCount)
        reader
      match entry with
      | none => throw .unsupported
      | some definedCount =>
          checkEntries sections imports exported typeCount names definedCount reader

/-- `verify_payload_digest`. -/
def verifyPayloadDigest (crypto : Crypto) (reader : WasmReader) (expected : Sha256) :
    Checking Unit := do
  let started ← Fallible.attempt (Program.call (I := ReadPort) (.digest .start))
  Fallible.require started .invalid
  let digest ← Fallible.chunked wasmReadBytes reader.size
    (fun offset amount digest => do
      let answer ← Fallible.attempt
        (Program.call (I := ReadPort) (.read (reader.base + offset) amount))
      match answer with
      | .failed _ => throw .readFailed
      | .ok block =>
          let updated ← Fallible.attempt
            (Program.call (I := ReadPort) (.digest (.update block.toList)))
          Fallible.require updated .invalid
          pure (digest ++ block.toList))
    []
  let finished ← Fallible.attempt (Program.call (I := ReadPort) (.digest .finish))
  Fallible.require (finished && crypto.sha256 digest == expected) .invalid

/-- The part of `econtainer_package_wasm_check` behind the import and export scans. -/
def checkAbi (crypto : Crypto) (info : Info) (sections : WasmSections) (imports : WasmImports)
    (exported : WasmExports) (reader : WasmReader) : Checking Unit := do
  Fallible.require (imports.capabilities &&& ~~~info.requestedCapabilities == 0) .invalid
  Fallible.require
    (!(exported.functions .init == exported.functions .onEvent ||
      exported.functions .init == exported.functions .stop ||
      exported.functions .onEvent == exported.functions .stop)) .unsupported
  let (typeCount, reader) ← scanned
    (do
      let (typeCount, _) ← nextU32 (sections 1).endOffset (sections 1).beginOffset
      pure typeCount)
    reader
  match typeCount with
  | none => throw .unsupported
  | some typeCount =>
      let (definedCount, reader) ← checkEntries sections imports exported typeCount
        [.init, .onEvent, .stop] 0 reader
      let (_, reader) ← scanned
        (do
          scanMemory (sections 5) info.memoryLimitBytes.toNat
          scanCode (sections 10) definedCount)
        reader
      verifyPayloadDigest crypto reader info.wasmSha256

/-- The reader `econtainer_package_wasm_check` starts with. -/
def WasmReader.start (info : Info) : WasmReader :=
  ⟨info.wasmOffsetBytes, info.wasmSizeBytes, [], 0, 0, false⟩

/-- `econtainer_package_wasm_check` behind its argument checks. -/
def wasmCheckModule (crypto : Crypto) (info : Info) : Checking Unit := do
  let (sections, reader) ← scanned (scanSections info.wasmSizeBytes) (.start info)
  match sections with
  | none => throw .unsupported
  | some sections =>
      let (imports, reader) ← scanned (scanImports sections) reader
      let (exported, reader) ← scanned (scanExports (sections 7)) reader
      match imports, exported with
      | some imports, some exported => checkAbi crypto info sections imports exported reader
      | _, _ => throw .unsupported

/-- `econtainer_package_wasm_check`; a null pointer is `none` or `false`. -/
def packageWasmCheck (crypto : Crypto) (hasReadFn : Bool) (info : Option Info)
    (authorization : Option WasmAuthorization) (hasWorkspace : Bool) :
    Program ReadPort (Except WasmError Unit) :=
  match info, authorization with
  | some info, some authorization =>
      if !hasReadFn || !hasWorkspace || !wasmBoundsValid info authorization then
        pure (.error .invalid)
      else if !wasmProfileSupported info then
        pure (.error .unsupported)
      else if !wasmAuthorized info authorization then
        pure (.error .notAuthorized)
      else
        (wasmCheckModule crypto info).run
  | _, _ => pure (.error .invalid)

end Package
