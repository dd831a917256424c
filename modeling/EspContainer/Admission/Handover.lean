/-
# From admission to the runtime

The package's check and the runtime's scan are written twice, for the package's stream and for
a module in memory. Every module that the first admits passes the second, needs no more
capabilities than were requested, and keeps within the pages that its limit allows. A candidate
that was let into a slot is therefore never refused again by the checks that open the runtime.
-/

import EspContainer.Admission.Admissible
import EspContainer.Admission.RawImports
import EspContainer.Package.Admission
import EspContainer.Runtime.Opening

namespace Container

open Binary Interaction Package Slots Wasm

variable {wasm package : List UInt8} {required : Finset String} {found : Tools.Scanned}
  {maxMemoryBytes : Nat}

/-! ## The scans -/

/-- The sections of an accepted module, at their places in it. -/
theorem exists_sections_of_scanAccepts
    (haccepts : Tools.ScanAccepts wasm maxMemoryBytes required found) :
    ∃ content entries rest, wasmHeader.length ≤ wasm.length ∧
      wasm.take wasmHeader.length = wasmHeader ∧ At wasm wasmHeader.length content ∧
      Parser.many Parser.sectionEntry wasm.length content = some (entries, rest) ∧
      entries.foldlM Tools.sectionChange ([], 0) = some found.seen := by
  obtain ⟨content, entries, hwasm, hsections, hfold⟩ := haccepts.sections
  have hlength : content.length ≤ wasm.length := by
    rw [hwasm, List.length_append]
    exact Nat.le_add_left _ _
  obtain ⟨rest, hmany⟩ := (many_sectionEntry_eq_some hlength).mpr hsections
  refine ⟨content, entries, rest, ?_, ?_, ⟨?_, ?_⟩, hmany, hfold⟩
  · rw [hwasm, List.length_append]
    exact Nat.le_add_right _ _
  · rw [hwasm, List.take_left]
  · rw [hwasm, List.length_append]
    exact Nat.le_add_right _ _
  · rw [hwasm, List.drop_left]

/-- The runtime's scan accepts what the host's scan accepts, and finds the same capabilities. -/
theorem onModule_scanModule (haccepts : Tools.ScanAccepts wasm maxMemoryBytes required found) :
    RawScan.onModule (scanModule wasm.length) wasm = .ok (capabilityMask required) := by
  obtain ⟨content, entries, rest, hlength, hheader, hplace, hmany, hfold⟩ :=
    exists_sections_of_scanAccepts haccepts
  obtain ⟨typeContent, htypeSection, htypes, -⟩ := haccepts.types
  obtain ⟨exportContent, exported, hexportSection, hexported, hexports⟩ := haccepts.exports
  have hshort : ¬ wasm.length < wasmHeader.length := Nat.not_lt.mpr hlength
  have hcompared : RawScan.onModule (compareBytes wasmHeader 0) wasm = .ok true := by
    rw [onModule_compareBytes wasmHeader (by rwa [Nat.zero_add]), List.drop_zero, hheader,
      beq_self_eq_true]
  have hstart : RawSections.Located wasm ⟨0, 0, 0, 0⟩ ([], 0) := ⟨rfl, rfl⟩
  have haccepted : ∀ content, (7, content) ∈ entries → ∃ exported,
      Parser.whole (.vector .exportEntry) content = some exported ∧
        ∀ entry ∈ exported, Tools.exportAccepts entry = true := by
    intro content hmem
    have hlookup := (mem_sections_iff hfold (by decide) content).mp hmem
    obtain rfl := Option.some.inj (hlookup.symm.trans hexportSection)
    exact ⟨exported, hexported, hexports.accepted⟩
  obtain ⟨sections, hlocated, hloop⟩ := onModule_rawSectionsLoop hstart hplace hmany hfold haccepted
  rw [scanModule, onModule_demand, decide_eq_false hshort, Bool.not_false, if_pos rfl, onModule_bind,
    hcompared]
  change RawScan.onModule (demand true >>= _) wasm = _
  rw [onModule_demand, if_pos rfl, onModule_bind, hloop]
  exact onModule_scanRawImports hlocated htypeSection htypes haccepts.imports

/-- The search for the memory finds one within every larger limit. -/
theorem onModule_memory (haccepts : Tools.ScanAccepts wasm maxMemoryBytes required found)
    {maxMemoryPages : Nat} (hpages : maxMemoryBytes / 65536 ≤ maxMemoryPages) :
    RawScan.onModule (rawMemoryLoop wasm.length maxMemoryPages wasm.length wasmHeader.length) wasm =
      .ok true := by
  obtain ⟨content, entries, rest, -, -, hplace, hmany, hfold⟩ :=
    exists_sections_of_scanAccepts haccepts
  obtain ⟨memoryContent, memory, hmemorySection, hmemory, hcount, hflags, hminimum, hordered,
    hwithin⟩ := haccepts.memory
  have hsame : maxMemoryPages = maxMemoryPages * 65536 / 65536 :=
    (Nat.mul_div_cancel _ (by decide)).symm
  have hlimit : memory.maximum ≤ maxMemoryPages * 65536 / 65536 := hsame ▸ hwithin.trans hpages
  rw [hsame]
  apply onModule_rawMemoryLoop hplace hmany
  · intro content hmem
    have hlookup := (mem_sections_iff hfold (by decide) content).mp hmem
    obtain rfl := Option.some.inj (hlookup.symm.trans hmemorySection)
    exact ⟨memory, hmemory, hcount, hflags, hminimum, hordered, hlimit⟩
  · exact ⟨memoryContent, (mem_sections_iff hfold (by decide) memoryContent).mpr hmemorySection⟩

/-- What the runtime finds in a module that was accepted. -/
theorem wasmImportedCapabilities_of_scanAccepts
    (haccepts : Tools.ScanAccepts wasm maxMemoryBytes required found) :
    wasmCheck wasm = .ok () ∧ wasmImportedCapabilities wasm = some (capabilityMask required) := by
  rw [wasmCheck, wasmImportedCapabilities, onModule_scanModule haccepts]
  exact ⟨rfl, rfl⟩

theorem wasmMemoryWithinLimit_of_scanAccepts
    (haccepts : Tools.ScanAccepts wasm maxMemoryBytes required found) {maxMemoryPages : UInt32}
    (hpages : maxMemoryBytes / 65536 ≤ maxMemoryPages.toNat) :
    wasmMemoryWithinLimit wasm maxMemoryPages = true := by
  obtain ⟨-, memory, -, -, -, -, hpositive, hordered, hwithin⟩ := haccepts.memory
  have hsome : (maxMemoryPages != 0) = true := by
    rw [bne_iff_ne]
    rintro rfl
    have hzero : maxMemoryBytes / 65536 = 0 := Nat.le_zero.mp hpages
    omega
  rw [wasmMemoryWithinLimit, hsome, (wasmImportedCapabilities_of_scanAccepts haccepts).1]
  exact decide_eq_true (onModule_memory haccepts hpages)

/-! ## The package's check -/

/-- Every module that the package's check admits is admitted by the runtime's scan, with no
capability that was not requested and authorized, and within the pages of its limit. -/
theorem rawScan_of_packageWasmCheck (crypto : Crypto) {info : Info}
    {authorization : WasmAuthorization} (hpayload : PayloadAt package info.wasmOffsetBytes wasm)
    (hsize : wasm.length = info.wasmSizeBytes)
    (hcheck : (packageWasmCheck crypto true (some info) (some authorization) true).eval
      (snapshot package) = .ok ()) :
    wasmCheck wasm = .ok () ∧ ∃ capabilities, wasmImportedCapabilities wasm = some capabilities ∧
      capabilities &&& ~~~info.requestedCapabilities = 0 ∧
      capabilities &&& ~~~authorization.allowedCapabilities = 0 ∧
      ∀ maxMemoryPages : UInt32, info.memoryLimitBytes.toNat / 65536 ≤ maxMemoryPages.toNat →
        wasmMemoryWithinLimit wasm maxMemoryPages = true := by
  obtain ⟨-, -, hauthorized, ⟨sections, imports, exported, typeCount, definedCount, haccepted⟩, -⟩ :=
    (eval_packageWasmCheck_eq_ok hpayload hsize).mp hcheck
  obtain ⟨required, found, haccepts, hcapabilities⟩ := haccepted.scanAccepts
  have hrequested := haccepted.requested
  rw [hcapabilities] at hrequested
  rw [wasmAuthorized, Bool.not_eq_true', Bool.or_eq_false_iff, Bool.or_eq_false_iff,
    bne_eq_false_iff_eq] at hauthorized
  obtain ⟨hscanned, hfound⟩ := wasmImportedCapabilities_of_scanAccepts haccepts
  exact ⟨hscanned, _, hfound, hrequested, and_not_eq_zero_trans hrequested hauthorized.1.1,
    fun _ hpages => wasmMemoryWithinLimit_of_scanAccepts haccepts hpages⟩

/-- The logging module is accepted, with its one capability. -/
theorem scanAccepts_loggingModule :
    ∃ found, Tools.ScanAccepts loggingModule 65536 {"log"} found :=
  (Tools.wasmScan_eq_ok (by decide +kernel)).mp (by decide +kernel)

theorem packageWasmCheck_loggingModule :
    (packageWasmCheck constantCrypto true (some loggingInfo) (some ⟨capAll, 65536, 4096⟩) true).eval
      (snapshot loggingModule) = .ok () := by
  obtain ⟨found, haccepts⟩ := scanAccepts_loggingModule
  have hrequested : capabilityMask {"log"} &&& ~~~loggingInfo.requestedCapabilities = 0 := by
    decide +kernel
  obtain ⟨sections, imports, exported, typeCount, definedCount, haccepted, -⟩ :=
    moduleAccepted_of_scanAccepts haccepts hrequested
  exact (eval_packageWasmCheck_eq_ok (payloadAt_self loggingModule) rfl).mpr
    ⟨by decide +kernel, by decide, by decide, ⟨_, _, _, _, _, haccepted⟩, rfl⟩

/-- The runtime finds the one capability of the logging module. -/
theorem rawScan_of_packageWasmCheck_loggingModule :
    wasmCheck loggingModule = .ok () ∧ ∃ capabilities,
      wasmImportedCapabilities loggingModule = some capabilities ∧
      capabilities &&& ~~~(capLog ||| capTimer) = 0 ∧
      wasmMemoryWithinLimit loggingModule 1 = true := by
  obtain ⟨hscanned, capabilities, hfound, hrequested, -, hmemory⟩ :=
    rawScan_of_packageWasmCheck constantCrypto (payloadAt_self loggingModule) rfl
      packageWasmCheck_loggingModule
  exact ⟨hscanned, capabilities, hfound, hrequested, hmemory 1 (by decide)⟩

end Container
