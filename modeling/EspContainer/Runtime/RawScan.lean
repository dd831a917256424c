/-
# The runtime's own Wasm scan

`wasm_scan.c` holds the whole module and reads it through an index that its callers
keep inside the buffer. The scanning functions are programs over that one access, so
what they read is part of what they are.

A function of the source that returns `bool` and whose callers turn `false` into
`ECONTAINER_WASM_INVALID` throws that error itself. Where a caller makes something
else of it, the caller asks for the result instead of going on.
-/

import EspContainer.Package.WasmScan

namespace Container

open Binary Interaction Package

/-- The one access of the scanner: the byte at an index of the module. -/
@[reducible]
def ByteAccess : Interface where
  Call := Nat
  Answer _ := UInt8

/-- `econtainer_wasm_result_t` without `OK`, as far as `wasm_scan.c` uses it. -/
inductive ScanError
  | invalid
  | unsupported
  deriving DecidableEq

/-- A scanning function. -/
abbrev RawScan (α : Type) : Type := Fallible ByteAccess ScanError α

/-- Go on only if a check passed; otherwise the module is invalid. -/
def demand (check : Bool) : RawScan Unit := Fallible.require check .invalid

/-- Go on only if a check passed; otherwise the module is unsupported. -/
def demandSupported (check : Bool) : RawScan Unit := Fallible.require check .unsupported

/-- `wasm[index]`. -/
def readByte (index : Nat) : RawScan UInt8 :=
  Fallible.attempt (Program.call (I := ByteAccess) index)

/-! ## Numbers and names -/

/-- The loop of `read_u32`; the first argument counts the octets left. -/
def readU32Loop (stop : Nat) : Nat → Nat → Nat → Nat → RawScan (Nat × Nat)
  | 0, _, _, _ => throw .invalid
  | octets + 1, index, result, cursor => do
      demand (!(cursor ≥ stop))
      let octet ← readByte cursor
      demand (!(index == 4 && octet &&& 0xf0 != 0))
      let result := result ||| octetBits octet index
      if octet &&& 0x80 == 0 then
        pure (result, cursor + 1)
      else
        readU32Loop stop octets (index + 1) result (cursor + 1)

/-- `read_u32`. -/
def readU32 (stop cursor : Nat) : RawScan (Nat × Nat) := readU32Loop stop 5 0 0 cursor

/-- A name in the module: where it begins and how long it is. -/
structure RawName where
  start : Nat
  length : Nat

/-- Whether the bytes from an index on are the expected ones: `memcmp` of a name, and the
comparisons of a signature byte by byte. All of them are read. -/
def compareBytes (expected : List UInt8) (start : Nat) : RawScan Bool :=
  Fallible.counted expected.length
    (fun index same => do
      let byte ← readByte (start + index)
      pure (same && byte == expected.getD index 0))
    true

/-- `name_is`. -/
def rawNameIs (name : RawName) (expected : List UInt8) : RawScan Bool :=
  if name.length == expected.length then compareBytes expected name.start else pure false

/-- `read_name`. -/
def readName (stop cursor : Nat) : RawScan (RawName × Nat) := do
  let (length, cursor) ← readU32 stop cursor
  demand (!(length > stop - cursor))
  pure (⟨cursor, length⟩, cursor + length)

/-- The search of `dangerous_export`. -/
def dangerousAmong (name : RawName) : List (List UInt8) → RawScan Bool
  | [] => pure false
  | expected :: others => do
      let same ← rawNameIs name expected
      if same then pure true else dangerousAmong name others

/-- `dangerous_export`. -/
def dangerousExport (name : RawName) : RawScan Bool :=
  dangerousAmong name
    [ascii "__post_instantiate", ascii "__wasm_call_ctors", ascii "_initialize"]

/-! ## Sections -/

/-- Where the sections that are looked at again lie; zero while they were not seen. -/
structure RawSections where
  typeBegin : Nat
  typeEnd : Nat
  importBegin : Nat
  importEnd : Nat

/-- The export section. -/
def checkRawExports (stop cursor : Nat) : RawScan Unit := do
  let (count, cursor) ← readU32 stop cursor
  let cursor ← Fallible.counted count
    (fun _ cursor => do
      let (length, cursor) ← readU32 stop cursor
      demand (!(length > stop - cursor))
      let dangerous ← dangerousExport ⟨cursor, length⟩
      demandSupported (!dangerous)
      let cursor := cursor + length
      demand (!(cursor ≥ stop))
      let kind ← readByte cursor
      demand (!(kind > 3))
      let (_, cursor) ← readU32 stop (cursor + 1)
      pure cursor)
    cursor
  demand (cursor == stop)

/-- The first loop of `scan_module`. Every round takes bytes, so as many rounds as
bytes are enough; the first argument counts them. -/
def rawSectionsLoop (size : Nat) : Nat → Nat → UInt8 → RawSections → RawScan RawSections
  | 0, _, _, sections => pure sections
  | rounds + 1, cursor, last, sections =>
      if cursor < size then do
        let number ← readByte cursor
        let (length, cursor) ← readU32 size (cursor + 1)
        demand (!(length > size - cursor))
        let stop := cursor + length
        demandSupported (!(number > 12))
        demand (!(number != 0 && number ≤ last))
        demandSupported (number != 8)
        let last := if number != 0 then number else last
        let sections :=
          if number == 1 then { sections with typeBegin := cursor, typeEnd := stop } else sections
        let sections :=
          if number == 2 then { sections with importBegin := cursor, importEnd := stop }
          else sections
        if number == 7 then do
          checkRawExports stop cursor
          rawSectionsLoop size rounds stop last sections
        else
          rawSectionsLoop size rounds stop last sections
      else
        pure sections

/-! ## Imports -/

/-- The comparison at the end of `import_type_matches`. -/
def rawSignature (capability : UInt32) (timerCancel : Bool) (params paramTypes resultTypes : Nat) :
    RawScan Bool :=
  let parameters (expected : List UInt8) : RawScan Bool :=
    if params == expected.length then compareBytes expected paramTypes else pure false
  let matching (expected : List UInt8) (result : UInt8) : RawScan Bool := do
    let same ← parameters expected
    if same then do
      let type ← readByte resultTypes
      pure (type == result)
    else
      pure false
  if capability == capMonotonicTime then matching [] 0x7e
  else if capability == capLog then matching [0x7f, 0x7f] 0x7f
  else if capability == capTimer then
    if timerCancel then matching [0x7e] 0x7f else matching [0x7f, 0x7f] 0x7e
  else pure false

/-- The loop of `import_type_matches`; the first argument counts the types left. -/
def rawTypeLoop (stop wanted : Nat) (capability : UInt32) (timerCancel : Bool) :
    Nat → Nat → Nat → RawScan Bool
  | 0, _, _ => pure false
  | left + 1, index, cursor => do
      demand (!(cursor ≥ stop))
      let form ← readByte cursor
      demand (form == 0x60)
      let (params, cursor) ← readU32 stop (cursor + 1)
      demand (!(params > stop - cursor))
      let paramTypes := cursor
      let (results, cursor) ← readU32 stop (cursor + params)
      demand (!(results > stop - cursor))
      if index == wanted then
        if results != 1 then pure false
        else rawSignature capability timerCancel params paramTypes cursor
      else
        rawTypeLoop stop wanted capability timerCancel left (index + 1) (cursor + results)

/-- `import_type_matches`, with an error where it returns false early. -/
def rawTypeMatches (sections : RawSections) (typeIndex : Nat) (capability : UInt32)
    (timerCancel : Bool) : RawScan Bool := do
  demand (sections.typeBegin != 0)
  let (count, cursor) ← readU32 sections.typeEnd sections.typeBegin
  demand (!(typeIndex ≥ count))
  rawTypeLoop sections.typeEnd typeIndex capability timerCancel count 0 cursor

/-- The capability of an imported name; zero if it is not a known one. -/
def rawCapability (field : RawName) : RawScan UInt32 := do
  let clock ← rawNameIs field (ascii "monotonic_ms")
  if clock then pure capMonotonicTime else do
    let log ← rawNameIs field (ascii "log")
    if log then pure capLog else do
      let start ← rawNameIs field (ascii "timer_start")
      if start then pure capTimer else do
        let cancel ← rawNameIs field (ascii "timer_cancel")
        pure (if cancel then capTimer else 0)

/-- What the import loop keeps: `seen_imports` and `capabilities`. -/
structure RawImports where
  seen : UInt32
  capabilities : UInt32

/-- One round of the import loop. -/
def scanRawImport (sections : RawSections) (imports : RawImports) (cursor : Nat) :
    RawScan (RawImports × Nat) := do
  let stop := sections.importEnd
  let (module, cursor) ← readName stop cursor
  let (field, cursor) ← readName stop cursor
  demand (!(cursor ≥ stop))
  let kind ← readByte cursor
  demandSupported (kind == 0)
  let (typeIndex, cursor) ← readU32 stop (cursor + 1)
  let own ← rawNameIs module (ascii "econtainer")
  demandSupported own
  let capability ← rawCapability field
  let timerCancel ← rawNameIs field (ascii "timer_cancel")
  let seenBit := if timerCancel then 8 else capability
  demandSupported (!(capability == 0 || imports.seen &&& seenBit != 0))
  let matched ← Fallible.attempt (rawTypeMatches sections typeIndex capability timerCancel).run
  demandSupported (matched = .ok true)
  pure (⟨imports.seen ||| seenBit, imports.capabilities ||| capability⟩, cursor)

/-- The second half of `scan_module`. -/
def scanRawImports (sections : RawSections) : RawScan UInt32 := do
  if sections.importBegin == 0 then pure 0 else do
    let (count, cursor) ← readU32 sections.importEnd sections.importBegin
    demandSupported (!(count > 4))
    let (imports, cursor) ← Fallible.counted count
      (fun _ (imports, cursor) => scanRawImport sections imports cursor)
      (⟨0, 0⟩, cursor)
    demand (cursor == sections.importEnd)
    pure imports.capabilities

/-! ## The module -/

/-- `scan_module` on a non-null module; its result is the required capabilities. -/
def scanModule (size : Nat) : RawScan UInt32 := do
  demand (!(size < wasmHeader.length))
  let header ← compareBytes wasmHeader 0
  demand header
  let sections ← rawSectionsLoop size size wasmHeader.length 0 ⟨0, 0, 0, 0⟩
  scanRawImports sections

/-- The first memory section: the loop of `econtainer_wasm_memory_within_limit`. -/
def rawMemoryLoop (size maxMemoryPages : Nat) : Nat → Nat → RawScan Bool
  | 0, _ => pure false
  | rounds + 1, cursor =>
      if cursor < size then do
        let number ← readByte cursor
        let (length, cursor) ← readU32 size (cursor + 1)
        demand (!(length > size - cursor))
        let stop := cursor + length
        if number == 5 then do
          let (count, cursor) ← readU32 stop cursor
          demand (count == 1)
          let (flags, cursor) ← readU32 stop cursor
          demand (flags == 1)
          let (minimum, cursor) ← readU32 stop cursor
          demand (minimum > 0)
          let (maximum, cursor) ← readU32 stop cursor
          pure (minimum ≤ maximum && maximum ≤ maxMemoryPages && cursor == stop)
        else
          rawMemoryLoop size maxMemoryPages rounds stop
      else
        pure false

/-- Run a scanning function on a module. -/
def RawScan.onModule {α : Type} (scan : RawScan α) (wasm : List UInt8) : Except ScanError α :=
  scan.eval fun index => wasm.getD index 0

/-- `econtainer_wasm_check`. -/
def wasmCheck (wasm : List UInt8) : Except ScanError Unit :=
  (RawScan.onModule (scanModule wasm.length) wasm).map fun _ => ()

/-- `econtainer_wasm_imported_capabilities`. -/
def wasmImportedCapabilities (wasm : List UInt8) : Option UInt32 :=
  (RawScan.onModule (scanModule wasm.length) wasm).toOption

/-- `econtainer_wasm_memory_within_limit`. -/
def wasmMemoryWithinLimit (wasm : List UInt8) (maxMemoryPages : UInt32) : Bool :=
  maxMemoryPages != 0 && (wasmCheck wasm).isOk &&
    decide (RawScan.onModule (rawMemoryLoop wasm.length maxMemoryPages.toNat wasm.length 8) wasm =
      .ok true)

end Container
