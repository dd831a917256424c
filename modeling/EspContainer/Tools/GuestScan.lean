/-
# The checker of the sample guest

`check_wasm` of `counter_guest.py` and the functions it calls. It accepts the modules the
sample's build produces and little else: one section of each kind it knows, two function
types, three functions, a fixed memory and one global variable.
-/

import Mathlib.Data.List.Dedup
import EspContainer.Package.WasmScan
import EspContainer.Tools.Readers
import EspContainer.Wasm.Module

namespace Tools.Guest

open Binary Package Wasm

/-- `MEMORY_PAGES`. -/
def memoryPages : Nat := 2

/-- `PAGE_BYTES`. -/
def pageBytes : Nat := 65536

/-- `STACK_BYTES`. -/
def stackBytes : Nat := 4096

/-- `EXPORT_TYPES`. -/
def exportTypes : List (String × FuncType) :=
  [("econtainer_init", ([], [0x7f])), ("econtainer_on_event", ([0x7f, 0x7f], [0x7f])),
    ("econtainer_stop", ([], [0x7f]))]

/-- `SECTIONS`. -/
def sectionNumbers : List UInt8 := [1, 3, 5, 6, 7, 10]

/-- Two lists with the same elements: `set(first) == set(second)`. -/
def sameElements {α : Type} [DecidableEq α] (first second : List α) : Bool :=
  first.all (· ∈ second) && second.all (· ∈ first)

/-- One round of the loop of `_types`. -/
def typeStep (data : List UInt8) : Reads FuncType := do
  let form ← GuestReader.byte data
  refuseWhen (form != 0x60) "只允许函数类型"
  let params ← GuestReader.takeSized data
  let returns ← GuestReader.takeSized data
  pure (params, returns)

/-- `_types`. -/
def types (data : List UInt8) : Checked (List FuncType) := Reads.run do
  let count ← GuestReader.u32 data
  let result ← collected (typeStep data) count
  GuestReader.finish data
  refuseWhen (!sameElements result (exportTypes.map Prod.snd) || result.length != 2)
    "counter 函数类型与 guest ABI 不符"
  pure result

/-- One round of the loop of `_functions`. -/
def functionStep (data : List UInt8) (types : List FuncType) : Reads FuncType := do
  let index ← GuestReader.u32 data
  refuseWhen (index ≥ types.length) "函数类型索引越界"
  StateT.lift (itemAt types index)

/-- `_functions`. -/
def functions (data : List UInt8) (types : List FuncType) : Checked (List FuncType) := Reads.run do
  let count ← GuestReader.u32 data
  let result ← collected (functionStep data types) count
  GuestReader.finish data
  refuseWhen (result.length != 3) "counter 必须恰好定义三个函数"
  pure result

/-- `_memory`. -/
def memory (data : List UInt8) : Checked Unit := Reads.run do
  let count ← GuestReader.u32 data
  let flags ← GuestReader.u32 data
  let minimum ← GuestReader.u32 data
  let maximum ← GuestReader.u32 data
  refuseWhen ((count, flags, minimum, maximum) != (1, 1, memoryPages, memoryPages))
    "counter 内存必须为非共享、固定 128 KiB"
  GuestReader.finish data

/-- `_global`. -/
def globals (data : List UInt8) : Checked Unit := Reads.run do
  let count ← GuestReader.u32 data
  let type ← GuestReader.byte data
  let mutability ← GuestReader.byte data
  let opcode ← GuestReader.byte data
  refuseWhen ((count, type, mutability, opcode) != (1, 0x7f, 1, 0x41))
    "counter 只允许一个 i32 栈指针全局变量"
  let stackTop ← GuestReader.u32 data
  refuseWhen (!(stackBytes ≤ stackTop && stackTop ≤ memoryPages * pageBytes))
    "counter 栈指针超出固定线性内存"
  let last ← GuestReader.byte data
  refuseWhen (last != 0x0b) "counter 栈指针超出固定线性内存"
  GuestReader.finish data

/-- One round of the loop of `_exports`. -/
def exportStep (data : List UInt8) (result : List (String × UInt8 × Nat)) :
    Reads (List (String × UInt8 × Nat)) := do
  let name ← GuestReader.name data
  refuseWhen (result.lookup name).isSome "Wasm 导出名称重复"
  let kind ← GuestReader.byte data
  let index ← GuestReader.u32 data
  pure ((name, kind, index) :: result)

/-- The loop over `EXPORT_TYPES` in `_exports`, which returns `function_indexes`. -/
def functionIndexes (result : List (String × UInt8 × Nat)) (functions : List FuncType) :
    List (String × FuncType) → Checked (List Nat)
  | [] => pure []
  | (name, expectedType) :: others => do
      let (kind, index) ← entryAt result name
      refuseIf (kind != 0 || functions[index]? != some expectedType) (name ++ " 的 Wasm 函数签名不符")
      let indexes ← functionIndexes result functions others
      pure (index :: indexes)

/-- `_exports`. -/
def exports (data : List UInt8) (functions : List FuncType) : Checked Unit := do
  let result ← Reads.run do
    let count ← GuestReader.u32 data
    let result ← repeated (exportStep data) count []
    GuestReader.finish data
    pure result
  refuseIf (!sameElements (result.map Prod.fst) ("memory" :: exportTypes.map Prod.fst))
    "counter 导出集合与 guest ABI 不符"
  let memory ← entryAt result "memory"
  refuseIf (memory != (2, 0)) "counter 导出集合与 guest ABI 不符"
  let indexes ← functionIndexes result functions exportTypes
  refuseIf (indexes.dedup.length != 3) "counter 入口不能复用同一个函数"

/-- One round of the loop of `_code`. -/
def bodyStep (data : List UInt8) (_ : Unit) : Reads Unit := do
  let body ← GuestReader.takeSized data
  refuseWhen (body.length < 2 || body.getLast? != some 0x0b) "Wasm 函数体缺失结束指令"

/-- `_code`. -/
def code (data : List UInt8) (functionCount : Nat) : Checked Unit := Reads.run do
  let count ← GuestReader.u32 data
  refuseWhen (count != functionCount) "Wasm 函数与代码数量不符"
  repeated (bodyStep data) functionCount ()
  GuestReader.finish data

/-- The sections seen so far, the last in front, and the number of the last one that counts. -/
abbrev SeenSections : Type := List (UInt8 × List UInt8) × UInt8

/-- One round of the loop of `check_wasm`. -/
def sectionStep (data : List UInt8) (seen : SeenSections) : Reads SeenSections := do
  let (sections, lastSection) := seen
  let number ← GuestReader.byte data
  let content ← GuestReader.takeSized data
  if number == 0 then do
    let custom ← StateT.lift (Reads.run (GuestReader.name content))
    refuseWhen (!(["name", "producers"].contains custom)) ("不允许的自定义节或目标特性：" ++ custom)
    pure (sections, lastSection)
  else do
    refuseWhen (!sectionNumbers.contains number || number ≤ lastSection)
      "Wasm section 不属于 counter Classic profile 或顺序错误"
    pure ((number, content) :: sections, number)

/-- `check_wasm`. -/
def checkWasm (data : List UInt8) : Checked Unit := do
  let (sections, _) ← Reads.run do
    let header ← GuestReader.take data 8
    refuseWhen (header != wasmHeader) "不是标准 Wasm v1 模块"
    untilEnd data (sectionStep data) data.length ([], 0)
  refuseIf (!sameElements (sections.map Prod.fst) sectionNumbers) "counter 必需的 Wasm section 不完整"
  let types ← types (← entryAt sections 1)
  let functions ← functions (← entryAt sections 3) types
  memory (← entryAt sections 5)
  globals (← entryAt sections 6)
  exports (← entryAt sections 7) functions
  code (← entryAt sections 10) functions.length

end Tools.Guest
