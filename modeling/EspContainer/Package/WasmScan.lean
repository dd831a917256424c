/-
# The package's Wasm scanner

`package_wasm.c` never holds the module: every function reads it byte by byte
through `byte_at`, at offsets into the payload. The scanning functions are
programs over that one call. An answer of `none` is a byte that is past the end
or could not be read, and each function fails at once when it gets one.

`Stop.unsupported` is the early `*unsupported = true; return true` of the source,
`Stop.failed` its `return false`.
-/

import EspContainer.Package.Verify

namespace Package

open Binary Interaction

/-- The one call of the scanner: the byte at an offset of the payload. -/
@[reducible]
def BytePort : Interface where
  Call := Nat
  Answer _ := Option UInt8

/-- Why a scanning function stops early. -/
inductive Stop
  | failed
  | unsupported
  deriving DecidableEq

/-- A scanning function. -/
abbrev Scan (α : Type) : Type := Fallible BytePort Stop α

/-- Go on only if a check passed; otherwise the function returns false. -/
def scanRequire (check : Bool) : Scan Unit := Fallible.require check .failed

/-- Go on only if a check passed; otherwise the module is unsupported. -/
def scanSupported (check : Bool) : Scan Unit := Fallible.require check .unsupported

/-- `byte_at`, as its callers see it. -/
def byteAt (offset : Nat) : Scan UInt8 := do
  let answer ← Fallible.attempt (Program.call (I := BytePort) offset)
  match answer with
  | some byte => pure byte
  | none => throw .failed

/-- `next_byte`. -/
def nextByte (stop cursor : Nat) : Scan (UInt8 × Nat) := do
  scanRequire (cursor < stop)
  let value ← byteAt cursor
  pure (value, cursor + 1)

/-- The seven value bits of an octet in the place of its index. -/
def octetBits (octet : UInt8) (index : Nat) : Nat := (octet &&& 0x7f).toNat <<< (7 * index)

/-- The loop of `next_u32`; the first argument counts the octets left. -/
def nextU32Loop (stop : Nat) : Nat → Nat → Nat → Nat → Scan (Nat × Nat)
  | 0, _, _, _ => throw .failed
  | octets + 1, index, result, cursor => do
      let (octet, cursor) ← nextByte stop cursor
      scanRequire (!(index == 4 && octet &&& 0xf0 != 0))
      let result := result ||| octetBits octet index
      if octet &&& 0x80 == 0 then
        pure (result, cursor)
      else
        nextU32Loop stop octets (index + 1) result cursor

/-- `next_u32`. -/
def nextU32 (stop cursor : Nat) : Scan (Nat × Nat) := nextU32Loop stop 5 0 0 cursor

/-- Whether the bytes at an offset are the expected ones, reading all of them. -/
def sameBytes (expected : List UInt8) (cursor : Nat) : Scan Bool :=
  Fallible.counted expected.length
    (fun index same => do
      let byte ← byteAt (cursor + index)
      pure (same && byte == expected.getD index 0))
    true

/-- `name_is`. -/
def nameIs (stop cursor : Nat) (expected : List UInt8) : Scan (Bool × Nat) := do
  let (length, cursor) ← nextU32 stop cursor
  scanRequire (!(length > stop - cursor))
  if length == expected.length then do
    let same ← sameBytes expected cursor
    pure (same, cursor + length)
  else
    pure (false, cursor + length)

/-! ## Sections -/

/-- `wasm_section_t`. -/
structure WasmSection where
  beginOffset : Nat
  endOffset : Nat
  present : Bool
  deriving DecidableEq

/-- The section that `{0}` initialises. -/
def WasmSection.absent : WasmSection := ⟨0, 0, false⟩

/-- `sections[13]`, by section number. -/
abbrev WasmSections : Type := UInt8 → WasmSection

/-- The loop of `scan_sections`. Every round takes bytes, so as many rounds as bytes
are enough; the first argument counts them. -/
def scanSectionsLoop (size : Nat) : Nat → Nat → UInt8 → WasmSections → Scan WasmSections
  | 0, _, _, sections => pure sections
  | rounds + 1, cursor, last, sections =>
      if cursor < size then do
        let (number, cursor) ← nextByte size cursor
        let (length, cursor) ← nextU32 size cursor
        scanRequire (!(length > size - cursor))
        scanSupported (!(number > 12 || number == 8 || number == 4 || number == 9))
        if number != 0 then do
          scanRequire (!(number ≤ last))
          scanSectionsLoop size rounds (cursor + length) number
            (Function.update sections number ⟨cursor, cursor + length, true⟩)
        else do
          let (targetFeatures, _) ← nameIs (cursor + length) cursor (ascii "target_features")
          scanSupported (!targetFeatures)
          scanSectionsLoop size rounds (cursor + length) last sections
      else
        pure sections

/-- `scan_sections`. -/
def scanSections (size : Nat) : Scan WasmSections := do
  Fallible.counted wasmHeader.length
    (fun index _ => do
      let byte ← byteAt index
      scanRequire (byte == wasmHeader.getD index 0))
    ()
  let sections ← scanSectionsLoop size size wasmHeader.length 0 fun _ => .absent
  scanRequire ((sections 1).present && (sections 3).present && (sections 5).present &&
    (sections 7).present && (sections 10).present)
  pure sections

/-! ## Types -/

/-- `value_type`. -/
def valueType (value : UInt8) : Bool :=
  value == 0x7f || value == 0x7e || value == 0x7d || value == 0x7c

/-- One of the two inner loops of `type_matches`. -/
def typeList (stop count : Nat) (expected : List UInt8) (matching : Bool) (cursor : Nat) :
    Scan (Bool × Nat) :=
  Fallible.counted count
    (fun part (matching, cursor) => do
      let (type, cursor) ← nextByte stop cursor
      scanRequire (valueType type)
      pure (matching && type == expected.getD part 0, cursor))
    (matching, cursor)

/-- `type_matches`. -/
def typeMatches (types : WasmSection) (wanted : Nat) (params results : List UInt8) : Scan Unit := do
  scanRequire types.present
  let (count, cursor) ← nextU32 types.endOffset types.beginOffset
  scanRequire (!(count > types.endOffset - cursor))
  let (found, cursor) ← Fallible.counted count
    (fun index (found, cursor) => do
      let (form, cursor) ← nextByte types.endOffset cursor
      scanRequire (form == 0x60)
      let (paramCount, cursor) ← nextU32 types.endOffset cursor
      scanRequire (!(paramCount > types.endOffset - cursor))
      let matching := index == wanted && paramCount == params.length
      let (matching, cursor) ← typeList types.endOffset paramCount params matching cursor
      let (resultCount, cursor) ← nextU32 types.endOffset cursor
      scanRequire (!(resultCount > types.endOffset - cursor))
      let matching := matching && resultCount == results.length
      let (matching, cursor) ← typeList types.endOffset resultCount results matching cursor
      pure (if index == wanted then matching else found, cursor))
    (false, cursor)
  scanRequire (cursor == types.endOffset && found)

/-! ## Imports -/

/-- `wasm_abi_t`, less what `scan_exports` and `function_type` add. -/
structure WasmImports where
  seen : UInt32
  capabilities : UInt32
  count : Nat
  deriving DecidableEq

/-- The host functions `scan_imports` knows. -/
inductive HostFunction
  | monotonicMs
  | log
  | timerStart
  | timerCancel
  deriving DecidableEq

namespace HostFunction

/-- The imported name. -/
def field : HostFunction → List UInt8
  | monotonicMs => ascii "monotonic_ms"
  | log => ascii "log"
  | timerStart => ascii "timer_start"
  | timerCancel => ascii "timer_cancel"

/-- `cap`. -/
def capability : HostFunction → UInt32
  | monotonicMs => capMonotonicTime
  | log => capLog
  | timerStart => capTimer
  | timerCancel => capTimer

/-- `seen_bit`. -/
def seenBit : HostFunction → UInt32
  | timerCancel => 8
  | function => function.capability

/-- `params`. -/
def params : HostFunction → List UInt8
  | monotonicMs => []
  | log => [0x7f, 0x7f]
  | timerStart => [0x7f, 0x7f]
  | timerCancel => [0x7e]

/-- `result`. -/
def results : HostFunction → List UInt8
  | monotonicMs => [0x7e]
  | log => [0x7f]
  | timerStart => [0x7e]
  | timerCancel => [0x7f]

end HostFunction

/-- The name of an imported field: each of the known names is tried at the same offset. -/
def importField (stop fieldBegin : Nat) : Scan (Option HostFunction × Nat) := do
  let (clockName, cursor) ← nameIs stop fieldBegin HostFunction.monotonicMs.field
  if clockName then pure (some .monotonicMs, cursor) else do
    let (logName, cursor) ← nameIs stop fieldBegin HostFunction.log.field
    if logName then pure (some .log, cursor) else do
      let (startName, cursor) ← nameIs stop fieldBegin HostFunction.timerStart.field
      if startName then pure (some .timerStart, cursor) else do
        let (cancelName, cursor) ← nameIs stop fieldBegin HostFunction.timerCancel.field
        pure (if cancelName then some .timerCancel else none, cursor)

/-- The result of `type_matches` where its caller does not return it: whatever made it
false, the module is unsupported. -/
def importTypeMatches (types : WasmSection) (typeIndex : Nat) (function : HostFunction) :
    Scan Unit := do
  let matched ← Fallible.attempt
    (typeMatches types typeIndex function.params function.results).run
  scanSupported matched.isOk

/-- One round of `scan_imports`. -/
def scanImport (sections : WasmSections) (imports : WasmImports) (cursor : Nat) :
    Scan (WasmImports × Nat) := do
  let stop := (sections 2).endOffset
  let (module, cursor) ← nameIs stop cursor (ascii "econtainer")
  let (function, cursor) ← importField stop cursor
  let (kind, cursor) ← nextByte stop cursor
  let (typeIndex, cursor) ← nextU32 stop cursor
  scanSupported (!(!module || kind != 0))
  match function with
  | none => throw .unsupported
  | some function => do
      scanSupported (imports.seen &&& function.seenBit == 0)
      importTypeMatches (sections 1) typeIndex function
      pure
        (⟨imports.seen ||| function.seenBit, imports.capabilities ||| function.capability,
          imports.count + 1⟩, cursor)

/-- `scan_imports`. -/
def scanImports (sections : WasmSections) : Scan WasmImports := do
  if !(sections 2).present then
    pure ⟨0, 0, 0⟩
  else do
    let (count, cursor) ← nextU32 (sections 2).endOffset (sections 2).beginOffset
    scanSupported (!(count > 4))
    let (imports, cursor) ← Fallible.counted count
      (fun _ (imports, cursor) => scanImport sections imports cursor)
      (⟨0, 0, 0⟩, cursor)
    scanRequire (cursor == (sections 2).endOffset)
    pure imports

/-! ## Exports -/

/-- The names of `scan_exports`. -/
inductive ExportName
  | init
  | onEvent
  | stop
  | memory
  deriving DecidableEq

namespace ExportName

/-- The exported name. -/
def field : ExportName → List UInt8
  | init => ascii "econtainer_init"
  | onEvent => ascii "econtainer_on_event"
  | stop => ascii "econtainer_stop"
  | memory => ascii "memory"

/-- `1U << target`. -/
def bit : ExportName → UInt32
  | init => 1
  | onEvent => 2
  | stop => 4
  | memory => 8

/-- The kind an export of this name has. -/
def kind : ExportName → UInt8
  | memory => 2
  | _ => 0

end ExportName

/-- The search of an exported name of some length among the known names. -/
def exportTarget (length cursor : Nat) : List ExportName → Scan (Option ExportName)
  | [] => pure none
  | name :: names =>
      if length != name.field.length then
        exportTarget length cursor names
      else do
        let same ← sameBytes name.field cursor
        if same then pure (some name) else exportTarget length cursor names

/-- What `scan_exports` found so far: the bits, and `functions` by name. -/
structure WasmExports where
  found : UInt32
  functions : ExportName → Nat

/-- One round of `scan_exports`. -/
def scanExport (stop : Nat) (exported : WasmExports) (cursor : Nat) :
    Scan (WasmExports × Nat) := do
  let (length, cursor) ← nextU32 stop cursor
  scanRequire (!(length > stop - cursor))
  let target ← exportTarget length cursor [.init, .onEvent, .stop, .memory]
  let cursor := cursor + length
  let (kind, cursor) ← nextByte stop cursor
  let (wasmIndex, cursor) ← nextU32 stop cursor
  match target with
  | none => throw .unsupported
  | some name => do
      scanSupported (!(exported.found &&& name.bit != 0 || kind != name.kind ||
        (name == .memory && wasmIndex != 0)))
      pure
        (⟨exported.found ||| name.bit,
          if name == .memory then exported.functions
          else Function.update exported.functions name wasmIndex⟩, cursor)

/-- `scan_exports`. -/
def scanExports (exports : WasmSection) : Scan WasmExports := do
  let (count, cursor) ← nextU32 exports.endOffset exports.beginOffset
  scanSupported (!(count != 4))
  let (exported, cursor) ← Fallible.counted count
    (fun _ (exported, cursor) => scanExport exports.endOffset exported cursor)
    (⟨0, fun _ => 0⟩, cursor)
  scanRequire (cursor == exports.endOffset && exported.found == 15)
  pure exported

/-! ## Functions, memory and code -/

/-- `function_type`: the type index of a function and the number of functions. -/
def functionType (functions : WasmSection) (wanted typeCount : Nat) : Scan (Nat × Nat) := do
  let (count, cursor) ← nextU32 functions.endOffset functions.beginOffset
  scanRequire (!(count > functions.endOffset - cursor || wanted ≥ count))
  let (typeIndex, cursor) ← Fallible.counted count
    (fun index (typeIndex, cursor) => do
      let (current, cursor) ← nextU32 functions.endOffset cursor
      scanRequire (!(current ≥ typeCount))
      pure (if index == wanted then current else typeIndex, cursor))
    (0, cursor)
  scanRequire (cursor == functions.endOffset)
  pure (typeIndex, count)

/-- `WASM_PAGE_BYTES`. -/
abbrev wasmPageBytes : Nat := 65536

/-- `scan_memory`. -/
def scanMemory (memory : WasmSection) (limitBytes : Nat) : Scan Unit := do
  let (count, cursor) ← nextU32 memory.endOffset memory.beginOffset
  scanRequire (count == 1)
  let (flags, cursor) ← nextU32 memory.endOffset cursor
  scanRequire (flags == 1)
  let (minimum, cursor) ← nextU32 memory.endOffset cursor
  scanRequire (minimum > 0)
  let (maximum, cursor) ← nextU32 memory.endOffset cursor
  scanRequire (minimum ≤ maximum && maximum ≤ limitBytes / wasmPageBytes &&
    cursor == memory.endOffset)

/-- `scan_code`. -/
def scanCode (code : WasmSection) (definedCount : Nat) : Scan Unit := do
  let (count, cursor) ← nextU32 code.endOffset code.beginOffset
  scanRequire (!(count != definedCount || count > code.endOffset - cursor))
  let cursor ← Fallible.counted count
    (fun _ cursor => do
      let (size, cursor) ← nextU32 code.endOffset cursor
      scanRequire (!(size < 2 || size > code.endOffset - cursor))
      let endOpcode ← byteAt (cursor + size - 1)
      scanRequire (endOpcode == 0x0b)
      pure (cursor + size))
    cursor
  scanRequire (cursor == code.endOffset)

end Package
