/-
# Modules that the host's scan accepts

What `_wasm` asks of a module as a whole: one structure over the items of its sections, with
the imports and the capabilities that they need.
-/

import EspContainer.Tools.HostAcceptance

namespace Tools

open Binary Package Wasm

variable {data : List UInt8}

/-! ## Imports -/

/-- What the loop over the imports makes of one. -/
def importChange (types : List FuncType) (found : List (List UInt8) × Finset String)
    (entry : Import) : Option (List (List UInt8) × Finset String) :=
  if entry.module == ascii "econtainer" && entry.kind == 0 then
    match expectedImports.lookup entry.field with
    | none => none
    | some (signature, capability) =>
        if entry.field ∈ found.1 || types[entry.index]? != some signature then none
        else some (entry.field :: found.1, insert capability found.2)
  else
    none

theorem obeys_wasmImport (types : List FuncType) (found : List (List UInt8) × Finset String) :
    Obeys data (wasmImport types data found)
      (Parser.importEntry >>= fun entry => Parser.given (importChange types found entry)) := by
  have hparser : (Parser.importEntry >>= fun entry =>
        Parser.given (importChange types found entry)) =
      (do
        let module ← Parser.sized
        let field ← Parser.sized
        let kind ← Parser.item
        let typeIndex ← Parser.number
        Parser.ensure (!(module != ascii "econtainer" || kind != 0 ||
          (expectedImports.lookup field).isNone))
        let expected ← Parser.given (entryAt expectedImports field).toOption
        Parser.ensure (!(decide (field ∈ found.1) || types[typeIndex]? != some expected.1))
        pure (field :: found.1, insert expected.2 found.2)) := by
    simp only [Parser.importEntry, bind_assoc, pure_bind]
    refine bind_congr fun module => bind_congr fun field => bind_congr fun kind =>
      bind_congr fun typeIndex => ?_
    rw [importChange, entryAt]
    dsimp only
    rw [Bool.not_or, Bool.not_or, bne, bne, Bool.not_not, Bool.not_not]
    cases module == ascii "econtainer" && kind == 0 with
    | false => rfl
    | true =>
        cases expectedImports.lookup field with
        | none => rfl
        | some expected =>
            obtain ⟨signature, capability⟩ := expected
            change Parser.given (if (decide (field ∈ found.1) || types[typeIndex]? != some signature) =
              true then none else some (field :: found.1, insert capability found.2)) =
                (Parser.ensure (!(decide (field ∈ found.1) || types[typeIndex]? != some signature)) >>=
                  fun _ => pure (field :: found.1, insert capability found.2))
            cases decide (field ∈ found.1) || types[typeIndex]? != some signature <;> rfl
  rw [hparser]
  exact obeys_packageTakeSized.bind fun module => obeys_packageTakeSized.bind fun field =>
    obeys_packageByte.bind fun kind => obeys_packageU32.bind fun typeIndex =>
      (obeys_refuseWhen _ _).bind fun _ => (obeys_lift _).bind fun _ =>
        (obeys_refuseWhen _ _).bind fun _ => obeys_pure _

/-- The imports of a module with these types need these capabilities. -/
def ImportsOf (types : List FuncType) (required : Finset String) (count : Nat) :
    Option (List UInt8) → Prop
  | none => required = ∅ ∧ count = 0
  | some content => ∃ entries seen, Parser.whole (.vector .importEntry) content = some entries ∧
      entries.length ≤ 4 ∧ entries.length = count ∧
      entries.foldlM (importChange types) ([], ∅) = some (seen, required)

/-- `_wasm_imports`. -/
theorem wasmImports_eq_ok {types : List FuncType} {content : Option (List UInt8)}
    {required : Finset String} {count : Nat} :
    wasmImports types content = .ok (required, count) ↔ ImportsOf types required count content := by
  cases content with
  | none =>
      rw [wasmImports, ImportsOf, checked_pure_eq_ok, Prod.mk.injEq, eq_comm, @eq_comm _ 0]
  | some content =>
      rw [wasmImports, ImportsOf]
      apply Iff.trans (Obeys.run_eq_ok ?hobeys)
      case hobeys =>
        apply obeys_packageU32.bind
        intro count
        apply (obeys_refuseWhen _ _).bind
        intro _
        apply (obeys_repeated (obeys_wasmImport types) count ([], ∅)).bind
        intro found
        apply obeys_packageFinish.bind
        intro _
        exact obeys_pure _
      simp only [Parser.whole_vector_eq_some, Parser.bind_eq_some, Parser.ensure_eq_some,
        Parser.given_eq_some, Parser.ending_eq_some, Parser.pure_eq_some, Prod.mk.injEq]
      constructor
      · rintro ⟨_, declared, middle, hdeclared, _, _, ⟨hfew, rfl⟩, ⟨seen, _⟩, _, ⟨entries, _, hentries,
          hfold, rfl⟩, _, _, ⟨rfl, rfl⟩, ⟨rfl, rfl⟩, rfl⟩
        have hlength := Parser.length_of_times hentries
        rw [Bool.not_eq_true', decide_eq_false_iff_not] at hfew
        exact ⟨entries, seen, ⟨_, _, hdeclared, hentries⟩, by omega, hlength, hfold⟩
      · rintro ⟨entries, seen, ⟨declared, middle, hdeclared, hentries⟩, hfew, rfl, hfold⟩
        obtain rfl := Parser.length_of_times hentries
        refine ⟨[], _, middle, hdeclared, (), middle, ⟨?_, rfl⟩, (seen, required), [], ⟨entries, [],
          hentries, hfold, rfl⟩, (), [], ⟨rfl, rfl⟩, ⟨rfl, rfl⟩, rfl⟩
        rw [decide_eq_false (Nat.not_lt.mpr hfew)]
        rfl

/-! ## Entry points -/

/-- Each function has the type that is expected of it. -/
theorem checkSignatures_eq_ok {types : List FuncType} {importedCount : Nat} {functions : List Nat}
    {expected : List (Nat × FuncType)} :
    checkSignatures types importedCount functions expected = .ok () ↔
      ∀ item ∈ expected, importedCount ≤ item.1 ∧ ∃ function,
        functions[item.1 - importedCount]? = some function ∧ types[function]? = some item.2 := by
  induction expected with
  | nil => simp [checkSignatures, checked_pure_eq_ok]
  | cons item expected ih =>
      simp only [checkSignatures, checked_bind_eq_ok, refuseIf_eq_ok, itemAt_eq_ok, ih,
        List.forall_mem_cons, Bool.or_eq_false_iff, decide_eq_false_iff_not, bne_eq_false_iff_eq]
      constructor
      · rintro ⟨_, ⟨himported, -⟩, function, hfunction, _, htype, _, rfl, hothers⟩
        exact ⟨⟨Nat.not_lt.mp himported, function, hfunction, htype⟩, hothers⟩
      · rintro ⟨⟨himported, function, hfunction, htype⟩, hothers⟩
        obtain ⟨hlength, -⟩ := List.getElem?_eq_some_iff.mp hfunction
        exact ⟨(), ⟨Nat.not_lt.mpr himported, Nat.not_le.mpr hlength⟩, function, hfunction, _,
          htype, (), rfl, hothers⟩

/-- No two of the entry points are the same function. -/
theorem dedup_length_eq_iff {α : Type} [DecidableEq α] {list : List α} :
    list.dedup.length = list.length ↔ list.Nodup := by
  constructor
  · intro hlength
    rw [← (List.dedup_sublist list).eq_of_length hlength]
    exact List.nodup_dedup list
  · intro hnodup
    rw [hnodup.dedup]

/-! ## Modules -/

/-- What the scan finds in a module on its way. -/
structure Scanned where
  seen : SeenSections
  types : List FuncType
  importedCount : Nat
  functions : List Nat
  init : Nat
  onEvent : Nat
  stop : Nat

/-- The entry points with the types that they must have. -/
def Scanned.entries (found : Scanned) : List (Nat × FuncType) :=
  [(found.init, ([], [0x7f])), (found.onEvent, ([0x7f, 0x7f], [0x7f])), (found.stop, ([], [0x7f]))]

/-- What the scan asks of a module under a memory limit; it needs these capabilities. -/
structure ScanAccepts (data : List UInt8) (maxMemoryBytes : Nat) (required : Finset String)
    (found : Scanned) : Prop where
  sections : ∃ content entries, data = wasmHeader ++ content ∧ sections content = some entries ∧
    entries.foldlM sectionChange ([], 0) = some found.seen
  types : ∃ content, found.seen.1.lookup 1 = some content ∧
    Parser.whole (.vector .funcType) content = some found.types ∧
    ∀ type ∈ found.types, knownTypes type = true
  imports : ImportsOf found.types required found.importedCount (found.seen.1.lookup 2)
  functions : ∃ content, found.seen.1.lookup 3 = some content ∧
    Parser.whole (.vector .number) content = some found.functions ∧
    ∀ index ∈ found.functions, index < found.types.length
  exports : ∃ content entries, found.seen.1.lookup 7 = some content ∧
    Parser.whole (.vector .exportEntry) content = some entries ∧
    ExportsOf entries found.init found.onEvent found.stop
  distinct : [found.init, found.onEvent, found.stop].Nodup
  signatures : ∀ item ∈ found.entries, found.importedCount ≤ item.1 ∧ ∃ function,
    found.functions[item.1 - found.importedCount]? = some function ∧
      found.types[function]? = some item.2
  memory : ∃ content memory, found.seen.1.lookup 5 = some content ∧
    Parser.whole .memory content = some memory ∧ MemoryWithin maxMemoryBytes memory
  code : ∃ content, found.seen.1.lookup 10 = some content ∧ CodeOf found.functions.length content

/-- `_wasm`. -/
theorem wasmScan_eq_ok {maxMemoryBytes : Nat} {required : Finset String}
    (hlength : data.length ≤ packageWasmMaxBytes) :
    wasmScan data maxMemoryBytes = .ok required ↔
      ∃ found, ScanAccepts data maxMemoryBytes required found := by
  simp only [wasmScan, checked_bind_eq_ok, refuseIf_eq_ok, entryAt_eq_ok, wasmTypes_eq_ok,
    wasmFunctions_eq_ok, checked_pure_eq_ok, wasmSections_eq_ok]
  constructor
  · rintro ⟨_, -, _, hheader, seen, ⟨entries, hentries, hseen⟩, _, -, typeSection, htypeSection, types,
      ⟨htypes, hknown⟩, ⟨required, importedCount⟩, himports, functionSection, hfunctionSection,
      functions, ⟨hfunctions, hbounded⟩, exportSection, hexportSection, ⟨init, onEvent, stop⟩,
      hexports, _, hdistinct, _, hsignatures, memorySection, hmemorySection, _, hmemory, codeSection,
      hcodeSection, _, hcode, rfl⟩
    rw [Bool.not_eq_false', List.isPrefixOf_iff_prefix] at hheader
    obtain ⟨content, rfl⟩ := hheader
    obtain ⟨exportEntries, hexportEntries, hexportsOf⟩ := wasmExports_eq_ok.mp hexports
    obtain ⟨memory, hwhole, hwithin⟩ := wasmMemory_eq_ok.mp hmemory
    exact ⟨⟨seen, types, importedCount, functions, init, onEvent, stop⟩,
      { sections := ⟨content, entries, rfl, hentries, hseen⟩
        types := ⟨typeSection, htypeSection, htypes, hknown⟩
        imports := wasmImports_eq_ok.mp himports
        functions := ⟨functionSection, hfunctionSection, hfunctions, hbounded⟩
        exports := ⟨exportSection, exportEntries, hexportSection, hexportEntries, hexportsOf⟩
        distinct := dedup_length_eq_iff.mp (bne_eq_false_iff_eq.mp hdistinct)
        signatures := checkSignatures_eq_ok.mp hsignatures
        memory := ⟨memorySection, memory, hmemorySection, hwhole, hwithin⟩
        code := ⟨codeSection, hcodeSection, wasmCode_eq_ok.mp hcode⟩ }⟩
  · rintro ⟨⟨seen, types, importedCount, functions, init, onEvent, stop⟩, haccepts⟩
    obtain ⟨content, entries, rfl, hentries, hseen⟩ := haccepts.sections
    obtain ⟨typeSection, htypeSection, htypes, hknown⟩ := haccepts.types
    obtain ⟨functionSection, hfunctionSection, hfunctions, hbounded⟩ := haccepts.functions
    obtain ⟨exportSection, exportEntries, hexportSection, hexportEntries, hexportsOf⟩ :=
      haccepts.exports
    obtain ⟨memorySection, memory, hmemorySection, hwhole, hwithin⟩ := haccepts.memory
    obtain ⟨codeSection, hcodeSection, hcode⟩ := haccepts.code
    refine ⟨(), decide_eq_false (Nat.not_lt.mpr hlength), (), ?header, seen, ⟨entries, hentries, hseen⟩,
      (), ?required, typeSection, htypeSection, types, ⟨htypes, hknown⟩, (required, importedCount),
      wasmImports_eq_ok.mpr haccepts.imports, functionSection, hfunctionSection, functions,
      ⟨hfunctions, hbounded⟩, exportSection, hexportSection, (init, onEvent, stop),
      wasmExports_eq_ok.mpr ⟨exportEntries, hexportEntries, hexportsOf⟩, (),
      bne_eq_false_iff_eq.mpr (dedup_length_eq_iff.mpr haccepts.distinct), (),
      checkSignatures_eq_ok.mpr haccepts.signatures, memorySection, hmemorySection, (),
      wasmMemory_eq_ok.mpr ⟨memory, hwhole, hwithin⟩, codeSection, hcodeSection, (),
      wasmCode_eq_ok.mpr hcode, rfl⟩
    case header =>
      rw [Bool.not_eq_false', List.isPrefixOf_iff_prefix]
      exact List.prefix_append _ _
    case required =>
      dsimp only at htypeSection hfunctionSection hexportSection hmemorySection hcodeSection
      rw [List.all_cons, List.all_cons, List.all_cons, List.all_cons, List.all_cons, htypeSection,
        hfunctionSection, hmemorySection, hexportSection, hcodeSection]
      rfl

end Tools
