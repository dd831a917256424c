/-
# The host's scan of a module

The Wasm checks of `product_package.py`. Each function reads the content of one section
with its own reader; `_wasm` takes the sections apart and calls them in turn.
-/

import Mathlib.Data.Finset.Insert
import EspContainer.Package.WasmScan
import EspContainer.Tools.Readers
import EspContainer.Wasm.Module

namespace Tools

open Binary Package Wasm

/-- One round of the loop of `_wasm_types`. -/
def wasmType (data : List UInt8) : Reads FuncType := do
  let form ← PackageReader.byte data
  refuseWhen (form != 0x60) "只允许 Wasm 函数类型"
  let params ← PackageReader.takeSized data
  let results ← PackageReader.takeSized data
  refuseWhen ((params ++ results).any fun value => !valueType value) "不允许的 Wasm 值类型"
  pure (params, results)

/-- `_wasm_types`. -/
def wasmTypes (data : List UInt8) : Checked (List FuncType) := Reads.run do
  let count ← PackageReader.u32 data
  let left ← PackageReader.left data
  refuseWhen (count > left) "非法 Wasm 类型数量"
  let types ← collected (wasmType data) count
  PackageReader.finish data
  pure types

/-- `expected` of `_wasm_imports`. -/
def expectedImports : List (List UInt8 × FuncType × String) :=
  [(ascii "monotonic_ms", ([], [0x7e]), "monotonic-time"),
    (ascii "log", ([0x7f, 0x7f], [0x7f]), "log"),
    (ascii "timer_start", ([0x7f, 0x7f], [0x7e]), "timer"),
    (ascii "timer_cancel", ([0x7e], [0x7f]), "timer")]

/-- One round of the loop of `_wasm_imports`, with `seen` and `required`. -/
def wasmImport (types : List FuncType) (data : List UInt8)
    (found : List (List UInt8) × Finset String) : Reads (List (List UInt8) × Finset String) := do
  let (seen, required) := found
  let module ← PackageReader.name data
  let field ← PackageReader.name data
  let kind ← PackageReader.byte data
  let typeIndex ← PackageReader.u32 data
  refuseWhen (module != ascii "econtainer" || kind != 0 || (expectedImports.lookup field).isNone)
    "不允许的 Wasm imports"
  let (signature, capability) ← StateT.lift (entryAt expectedImports field)
  refuseWhen (field ∈ seen || types[typeIndex]? != some signature) "Wasm imports 签名或重复项错误"
  pure (field :: seen, insert capability required)

/-- `_wasm_imports`. -/
def wasmImports (types : List FuncType) (data : Option (List UInt8)) :
    Checked (Finset String × Nat) :=
  match data with
  | none => pure (∅, 0)
  | some data => Reads.run do
      let count ← PackageReader.u32 data
      refuseWhen (count > 4) "不允许的 Wasm imports 数量"
      let (_, required) ← repeated (wasmImport types data) count ([], ∅)
      PackageReader.finish data
      pure (required, count)

/-- `_wasm_functions`. -/
def wasmFunctions (data : List UInt8) (typeCount : Nat) : Checked (List Nat) := Reads.run do
  let count ← PackageReader.u32 data
  let left ← PackageReader.left data
  refuseWhen (count > left) "非法 Wasm 函数数量"
  let functions ← collected (PackageReader.u32 data) count
  PackageReader.finish data
  refuseWhen (functions.any fun index => index ≥ typeCount) "Wasm 函数类型索引越界"
  pure functions

/-- `expected` of `_wasm_exports`. -/
def expectedExports : List (List UInt8 × UInt8) :=
  [(ascii "econtainer_init", 0), (ascii "econtainer_on_event", 0), (ascii "econtainer_stop", 0),
    (ascii "memory", 2)]

/-- One round of the loop of `_wasm_exports`. -/
def wasmExport (data : List UInt8) (exports : List (List UInt8 × Nat)) :
    Reads (List (List UInt8 × Nat)) := do
  let name ← PackageReader.name data
  let kind ← PackageReader.byte data
  let index ← PackageReader.u32 data
  refuseWhen ((expectedExports.lookup name).isNone || (exports.lookup name).isSome ||
      expectedExports.lookup name != some kind || (name == ascii "memory" && index != 0))
    "Wasm 导出集合与 ABI 不符"
  pure ((name, index) :: exports)

/-- `_wasm_exports`: the functions of the three entry points. -/
def wasmExports (data : List UInt8) : Checked (Nat × Nat × Nat) := do
  let exports ← Reads.run do
    let count ← PackageReader.u32 data
    refuseWhen (count != 4) "Wasm 导出集合与 ABI 不符"
    let exports ← repeated (wasmExport data) 4 []
    PackageReader.finish data
    pure exports
  refuseIf (!(expectedExports.all fun expected => (exports.lookup expected.1).isSome) ||
    !(exports.all fun entry => (expectedExports.lookup entry.1).isSome)) "Wasm 导出集合与 ABI 不符"
  let init ← entryAt exports (ascii "econtainer_init")
  let onEvent ← entryAt exports (ascii "econtainer_on_event")
  let stop ← entryAt exports (ascii "econtainer_stop")
  pure (init, onEvent, stop)

/-- `_wasm_memory`. -/
def wasmMemory (data : List UInt8) (maxMemoryBytes : Nat) : Checked Unit := Reads.run do
  let count ← PackageReader.u32 data
  let flags ← PackageReader.u32 data
  let minimum ← PackageReader.u32 data
  let maximum ← PackageReader.u32 data
  PackageReader.finish data
  refuseWhen (count != 1 || flags != 1 || minimum == 0 || minimum > maximum ||
    maximum > maxMemoryBytes / 65536) "Wasm 内存超出当前 profile 或清单限额"

/-- One round of the loop of `_wasm_code`. -/
def wasmBody (data : List UInt8) (_ : Unit) : Reads Unit := do
  let size ← PackageReader.u32 data
  let body ← PackageReader.take data size
  refuseWhen (size < 2 || body.getLast? != some 0x0b) "Wasm 函数体缺少结束指令"

/-- `_wasm_code`. -/
def wasmCode (data : List UInt8) (functionCount : Nat) : Checked Unit := Reads.run do
  let count ← PackageReader.u32 data
  refuseWhen (count != functionCount) "Wasm 函数与代码数量不符"
  repeated (wasmBody data) functionCount ()
  PackageReader.finish data

/-- The sections seen so far, the last in front, and the number of the last one that counts. -/
abbrev SeenSections : Type := List (UInt8 × List UInt8) × UInt8

/-- One round of the loop of `_wasm`. -/
def wasmSection (data : List UInt8) (seen : SeenSections) : Reads SeenSections := do
  let (sections, last) := seen
  let number ← PackageReader.byte data
  let content ← PackageReader.takeSized data
  refuseWhen ([4, 8, 9].contains number || number > 12)
    "不允许 Wasm start、table、element 或未知 section"
  if number == 0 then do
    let name ← StateT.lift (Reads.run (PackageReader.name content))
    refuseWhen (name == ascii "target_features") "不允许 Wasm target_features"
    pure (sections, last)
  else do
    refuseWhen (number ≤ last) "Wasm section 重复或乱序"
    pure ((number, content) :: sections, number)

/-- The signature of each entry point. -/
def checkSignatures (types : List FuncType) (importedCount : Nat) (functions : List Nat) :
    List (Nat × FuncType) → Checked Unit
  | [] => pure ()
  | (index, signature) :: others => do
      refuseIf (index < importedCount || index - importedCount ≥ functions.length)
        "Wasm 入口签名与 ABI 不符"
      let function ← itemAt functions (index - importedCount)
      let type ← itemAt types function
      refuseIf (type != signature) "Wasm 入口签名与 ABI 不符"
      checkSignatures types importedCount functions others

/-- `_wasm`. -/
def wasmScan (data : List UInt8) (maxMemoryBytes : Nat) : Checked (Finset String) := do
  refuseIf (data.length > packageWasmMaxBytes) "Wasm 超出设备扫描上限"
  refuseIf (!wasmHeader.isPrefixOf data) "不是标准 Wasm v1 模块"
  let module := data.drop 8
  let (sections, _) ← Reads.run (untilEnd module (wasmSection module) module.length ([], 0))
  refuseIf (!([1, 3, 5, 7, 10].all fun number => (sections.lookup number).isSome))
    "Wasm 缺少设备 ABI 必需 section"
  let types ← wasmTypes (← entryAt sections 1)
  let (required, importedCount) ← wasmImports types (sections.lookup 2)
  let functions ← wasmFunctions (← entryAt sections 3) types.length
  let (init, onEvent, stop) ← wasmExports (← entryAt sections 7)
  refuseIf ([init, onEvent, stop].dedup.length != 3) "Wasm 三个入口不能复用同一个函数"
  checkSignatures types importedCount functions
    [(init, ([], [0x7f])), (onEvent, ([0x7f, 0x7f], [0x7f])), (stop, ([], [0x7f]))]
  wasmMemory (← entryAt sections 5) maxMemoryBytes
  wasmCode (← entryAt sections 10) functions.length
  pure required

end Tools
